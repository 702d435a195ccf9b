import SchemaMigration.Proofs.Description.Lossless
import SchemaMigration.Proofs.Description.Spreading

/-!
# An expansion folds back into its declaration

The columns of a field stand together in an expansion, and so do the indexes of a declared index.
The first of them is folded back into what it was expanded from, and the others are passed over,
since a field or an index of their base is there by then. So the declaration comes back field by
field and index by index, without its relations, which have no column.

About `collapse`, on what `from_schema` makes.

* `fieldOf_column?`, `foldIndex_describe`: one column or index is folded into what it came from.
* `foldColumns_field`: the columns of one field are folded into it.
* `foldColumns_members`, `foldl_foldIndex_members`: members that are folded behind what was folded
  before, by induction on the items.
* **`collapse_ofSchema`**: the expansion of a declaration with distinct handles folds into the
  declaration without its relations.
-/

namespace SchemaMigration

namespace Description

variable {s : CollectionSchema} {locales : List String} {d : Description}

/-! ## Fields -/

/-- A column is folded into the field that it came from. -/
theorem fieldOf_column? {f : FieldDefinition} {slot : Option String} {c : ColumnDescription}
    (hc : f.column? slot = some c) (hslot : slot.isSome = f.localized) : fieldOf c = f := by
  obtain ⟨column, hcolumn, rfl⟩ := FieldDefinition.column?_eq_some_iff.mp hc
  obtain ⟨handle, kind, localized⟩ := f
  cases kind with
  | relation target => cases hcolumn
  | column type size default auto =>
    cases hcolumn
    simp only at hslot
    subst hslot
    cases slot <;> rfl

/-- Localized columns of a base that was folded before are passed over. -/
theorem foldColumns_siblings {collection : CollectionRef} {folded : List FieldDefinition}
    {base : String} (hbase : base ∈ folded.map FieldDefinition.handle)
    (r : List ColumnDescription) :
    ∀ {cs : List ColumnDescription}, (∀ c ∈ cs, c.isLocalized = true ∧ c.base = base) →
      foldColumns collection folded (cs ++ r) = foldColumns collection folded r
  | [], _ => rfl
  | c :: cs, h => by
    obtain ⟨⟨hlocalized, hc⟩, hcs⟩ := List.forall_mem_cons.mp h
    have hthere : (folded.any fun f => f.handle == c.base) = true := by
      obtain ⟨f, hf, e⟩ := List.mem_map.mp hbase
      exact List.any_eq_true.mpr ⟨f, hf, by simp [e, hc]⟩
    rw [List.cons_append, foldColumns, if_pos hthere, if_pos hlocalized]
    exact foldColumns_siblings hbase r hcs

/-- The columns of a field with a free handle are folded into the field: the first one gives it, and
the others find it there. -/
theorem foldColumns_field {collection : CollectionRef} {folded : List FieldDefinition}
    {f : FieldDefinition} (hrel : f.isRelation = false)
    (hlocales : f.localized = true → locales ≠ [])
    (hfree : f.handle ∉ folded.map FieldDefinition.handle) (r : List ColumnDescription) :
    foldColumns collection folded
        ((FieldDefinition.spreading.slots f locales).filterMap f.column? ++ r) =
      foldColumns collection (folded ++ [f]) r := by
  obtain ⟨slot, slots, hslots, hslot, hsome⟩ :=
    Spreading.slots_eq_cons (S := FieldDefinition.spreading) hlocales
  obtain ⟨c, hc⟩ := Option.isSome_iff_exists.mp (FieldDefinition.isSome_column? hrel slot)
  have hbase : c.base = f.handle := by
    obtain ⟨column, -, rfl⟩ := FieldDefinition.column?_eq_some_iff.mp hc
    rfl
  have hnone : ¬(folded.any fun g => g.handle == c.base) = true := by
    rw [hbase]
    simpa using hfree
  have hthere : f.handle ∈ (folded ++ [f]).map FieldDefinition.handle := by simp
  have hsiblings : ∀ c' ∈ slots.filterMap f.column?,
      c'.isLocalized = true ∧ c'.base = f.handle := by
    intro c' hc'
    obtain ⟨slot', hslot', hc'⟩ := List.mem_filterMap.mp hc'
    obtain ⟨column, -, rfl⟩ := FieldDefinition.column?_eq_some_iff.mp hc'
    exact ⟨hsome slot' hslot', rfl⟩
  rw [hslots, List.filterMap_cons_some hc, List.cons_append, foldColumns, if_neg hnone,
    fieldOf_column? hc hslot, foldColumns_siblings hthere r hsiblings]

/-- The columns of fields with free handles are folded into the fields, by induction on the fields:
what was folded before stays, and each field comes after it. -/
theorem foldColumns_members {collection : CollectionRef} :
    ∀ {fs folded : List FieldDefinition}, Keyed.Fresh FieldDefinition.handle folded fs →
      (∀ f ∈ fs, f.isRelation = false → f.localized = true → locales ≠ []) →
        foldColumns collection folded (FieldDefinition.spreading.members fs locales) =
          .ok (folded ++ fs.filter fun f => !f.isRelation)
  | [], folded, _, _ => by
    rw [List.filter_nil, List.append_nil]
    rfl
  | f :: fs, folded, hfresh, hlocales => by
    obtain ⟨hf, hfs⟩ := List.forall_mem_cons.mp hlocales
    obtain ⟨hfree, hrest⟩ := Keyed.fresh_cons.mp hfresh
    rw [Spreading.members_cons]
    cases hrel : f.isRelation with
    | true =>
      have hnone := FieldDefinition.filterMap_column?_of_relation hrel
        (FieldDefinition.spreading.slots f locales)
      rw [List.filter_cons_of_neg (by simp [hrel]), ← foldColumns_members hfresh.tail hfs]
      exact congrArg (fun cs => foldColumns collection folded (cs ++ _)) hnone
    | false =>
      refine (foldColumns_field hrel (hf hrel) hfree _).trans ?_
      rw [foldColumns_members hrest hfs, List.append_assoc, List.singleton_append,
        List.filter_cons_of_pos (by simp [hrel])]

/-! ## Indexes -/

theorem locales_ne_nil (h : ofSchema s locales = .ok d) {f : FieldDefinition} (hf : f ∈ s.fields)
    (hrel : f.isRelation = false) (hl : f.localized = true) : locales ≠ [] := by
  obtain ⟨cs, hcs, -⟩ := ok_of_concatMapM (ofSchema_ok h).2.2.1 hf
  exact (FieldDefinition.expand_localized hcs hrel hl).1

/-- A localized index covers a localized field, which has a column for some locale. -/
theorem locales_ne_nil_of_index (h : ofSchema s locales = .ok d) {i : Index} (hi : i ∈ s.indexes)
    (hlocalized : i.isLocalized s = true) : locales ≠ [] := by
  obtain ⟨is, his, -⟩ := ok_of_concatMapM (ofSchema_ok h).2.2.2.1 hi
  obtain ⟨name, hname⟩ := exists_field h hi
  obtain ⟨f, hf, hrel⟩ := (Index.expand_ok his).2.2 name hname
  have hl : s.localizes name = true := List.all_eq_true.mp hlocalized name hname
  rw [CollectionSchema.localizes, hf, Option.any_some] at hl
  exact locales_ne_nil h (List.mem_of_find?_eq_some hf) hrel hl

/-- A localized field that an index covers has a column for every locale, which is found under its
handle. -/
theorem baseColumn_expanded (h : ofSchema s locales = .ok d) {k : IndexColumn}
    (hlocalized : s.localizes k.field = true)
    (hdeclared : ∃ f, s.field? k.field = some f ∧ f.isRelation = false) {code : String}
    (hcode : code ∈ locales) :
    d.baseColumn { k with field := Locale.localize k.field code } = k := by
  obtain ⟨f, hf, hrel⟩ := hdeclared
  have hname : f.handle = k.field := by simpa using List.find?_some hf
  have hl : f.localized = true := by simpa [CollectionSchema.localizes, hf] using hlocalized
  obtain ⟨c, hc⟩ := Option.isSome_iff_exists.mp (FieldDefinition.isSome_column? hrel (some code))
  have hmem : c ∈ d.columns := by
    rw [columns_ofSchema h]
    exact Spreading.mem_members.mpr
      ⟨f, List.mem_of_find?_eq_some hf, some code, Spreading.some_mem_slots.mpr ⟨hl, hcode⟩, hc⟩
  obtain ⟨column, -, rfl⟩ := FieldDefinition.column?_eq_some_iff.mp hc
  have hfind : d.column? (Locale.localize k.field code) =
      some ⟨f.columnName (some code), f.handle, some code, column⟩ :=
    (Keyed.find?_eq_some_iff (wellFormed_of_ofSchema h).columns_nodup).mpr
      ⟨hmem, by rw [← hname]; rfl⟩
  simp [baseColumn, hfind, hname]

/-- A physical index whose name is free is folded into the index that it came from. -/
theorem foldIndex_describe (h : ofSchema s locales = .ok d) {i : Index} (hi : i ∈ s.indexes)
    {slot : Option String} (hslot : slot ∈ (Index.spreading s).slots i locales)
    {folded : List Index} (hfree : i.name ∉ folded.map Index.name) :
    d.foldIndex folded (i.describe slot) = folded ++ [i] := by
  cases slot with
  | none => rfl
  | some code =>
    obtain ⟨hlocalized, hcode⟩ := Spreading.some_mem_slots.mp hslot
    have hall : ∀ name ∈ i.fields, s.localizes name = true := List.all_eq_true.mp hlocalized
    obtain ⟨is, his, -⟩ := ok_of_concatMapM (ofSchema_ok h).2.2.2.1 hi
    have hkind := Index.not_primary_of_localized his hall
    have hcolumns : (i.inLocale code).columns.map d.baseColumn = i.columns := by
      have hback : ∀ k ∈ i.columns,
          d.baseColumn { k with field := Locale.localize k.field code } = k := fun k hk => by
        have hfield : k.field ∈ i.fields := List.mem_map_of_mem hk
        exact baseColumn_expanded h (hall _ hfield) ((Index.expand_ok his).2.2 _ hfield) hcode
      rw [Index.inLocale, List.map_map]
      exact (List.map_congr_left hback).trans (List.map_id _)
    have hnone : ¬(folded.any fun j => j.name == i.name) = true := by simpa using hfree
    show (if (folded.any fun j => j.name == i.name) = true then folded else
      folded ++ [Index.make i.name i.kind ((i.inLocale code).columns.map d.baseColumn)]) = _
    rw [if_neg hnone, hcolumns]
    obtain ⟨name, kind, columns⟩ := i
    cases kind with
    | primary => exact absurd rfl hkind
    | unique => rfl
    | plain => rfl

/-- Localized indexes of a name that was folded before are passed over. -/
theorem foldl_foldIndex_siblings {i : Index} {folded : List Index}
    (hname : i.name ∈ folded.map Index.name) :
    ∀ {slots : List (Option String)}, (∀ slot ∈ slots, slot.isSome = true) →
      (slots.map i.describe).foldl d.foldIndex folded = folded
  | [], _ => rfl
  | slot :: slots, h => by
    obtain ⟨hslot, hslots⟩ := List.forall_mem_cons.mp h
    obtain ⟨code, rfl⟩ := Option.isSome_iff_exists.mp hslot
    have hthere : (folded.any fun j => j.name == i.name) = true := by
      obtain ⟨j, hj, e⟩ := List.mem_map.mp hname
      exact List.any_eq_true.mpr ⟨j, hj, by simp [e]⟩
    have hstep : d.foldIndex folded (i.describe (some code)) = folded := if_pos hthere
    rw [List.map_cons, List.foldl_cons, hstep]
    exact foldl_foldIndex_siblings hname hslots

/-- The physical indexes of declared indexes with free names are folded into these, by induction on
them. -/
theorem foldl_foldIndex_members (h : ofSchema s locales = .ok d) :
    ∀ {is folded : List Index}, Keyed.Fresh Index.name folded is → (∀ i ∈ is, i ∈ s.indexes) →
      ((Index.spreading s).members is locales).foldl d.foldIndex folded = folded ++ is
  | [], folded, _, _ => (List.append_nil folded).symm
  | i :: is, folded, hfresh, hmem => by
    obtain ⟨hi, his⟩ := List.forall_mem_cons.mp hmem
    obtain ⟨hfree, hrest⟩ := Keyed.fresh_cons.mp hfresh
    obtain ⟨slot, slots, hslots, -, hsome⟩ :=
      Spreading.slots_eq_cons (S := Index.spreading s) (locales_ne_nil_of_index h hi)
    have hslot : slot ∈ (Index.spreading s).slots i locales := hslots ▸ List.mem_cons_self
    have hthere : i.name ∈ (folded ++ [i]).map Index.name := by simp
    have hindexes :
        ((Index.spreading s).slots i locales).filterMap ((Index.spreading s).member? i) =
          i.describe slot :: slots.map i.describe := by
      rw [hslots]
      exact congrFun List.filterMap_eq_map (slot :: slots)
    rw [Spreading.members_cons, hindexes, List.foldl_append, List.foldl_cons,
      foldIndex_describe h hi hslot hfree, foldl_foldIndex_siblings hthere hsome,
      foldl_foldIndex_members h hrest his, List.append_assoc, List.singleton_append]

/-! ## Declarations -/

/-- **An expansion folds back into its declaration**, without the relations, if the fields of the
declaration have distinct handles and its indexes distinct names. -/
theorem collapse_ofSchema (h : ofSchema s locales = .ok d)
    (hfields : (s.fields.map FieldDefinition.handle).Nodup)
    (hindexes : (s.indexes.map Index.name).Nodup) :
    d.collapse = .ok { s with fields := s.fields.filter fun f => !f.isRelation } := by
  have hcolumns : foldColumns d.collection [] d.columns =
      .ok (s.fields.filter fun f => !f.isRelation) := by
    rw [columns_ofSchema h]
    exact foldColumns_members (Keyed.fresh_nil_left.mpr hfields)
      fun f hf hrel hl => locales_ne_nil h hf hrel hl
  have hfolded : d.indexes.foldl d.foldIndex [] = s.indexes := by
    rw [indexes_ofSchema h]
    exact foldl_foldIndex_members h (Keyed.fresh_nil_left.mpr hindexes) fun _ hi => hi
  rw [collapse, hcolumns, hfolded, (ofSchema_ok h).2.1]
  rfl

end Description

/-! ## An example -/

namespace Posts

/-- Posts with an author, who is kept elsewhere. -/
def authored : CollectionSchema :=
  ⟨collection,
    [.column "id" .int64, (FieldDefinition.column "title" .text).asLocalized,
      .relation "author" ⟨none, "user", scope_valid, rfl⟩, .column "views" .int32],
    schema.indexes⟩

theorem ofSchema_authored : Description.ofSchema authored ["en", "fr"] = .ok declared := by
  rfl

end Posts

/-- Posts with an author come back as posts without one. -/
theorem Description.collapse_of_authored_posts : Posts.declared.collapse = .ok Posts.schema :=
  Description.collapse_ofSchema Posts.ofSchema_authored (by decide) (by decide)

end SchemaMigration
