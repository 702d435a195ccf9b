import SchemaMigration.Proofs.Description.Recognition
import SchemaMigration.Proofs.Keyed

/-!
# Items spread over locales

Fields and indexes are expanded by one rule: a localized item has a member for every locale, and any
other item has a single member. A member is named after its item and its locale.

* `Spreading`: the items and members of one kind; `members`: what items are expanded to.
* `Distinct.eq_of_handle`: expanded for two lists of locales, the same items have members of one
  handle only where they have the same member.
* **`Distinct.beyond_members`**: what the first list of locales adds to the second one are the
  members of localized items for the codes that only the first one has.
* `columns_ofSchema`, `indexes_ofSchema`: the columns and indexes of an accepted declaration are the
  members of its fields and indexes.
-/

namespace SchemaMigration

/-- The handle of a base in a locale, or the base itself. -/
def Locale.spell (base : String) : Option String → String
  | some code => localize base code
  | none => base

/-- How items of one kind are spread over locales. -/
structure Spreading (α δ : Type) where
  /-- The handle of an item. -/
  base : α → String
  /-- The item has a member for every locale. -/
  localized : α → Bool
  /-- The member of an item for a locale, or its single member, if the item has members at all. -/
  member? : α → Option String → Option δ
  /-- The handle of a member. -/
  handle : δ → String
  /-- The locale of a member. -/
  locale : δ → Option String
  /-- A member is named after its item and its locale. -/
  handle_member : ∀ {a slot x}, member? a slot = some x → handle x = Locale.spell (base a) slot
  /-- A member is of the locale that it was made for. -/
  locale_member : ∀ {a slot x}, member? a slot = some x → locale x = slot

namespace Spreading

variable {α δ : Type} (S : Spreading α δ)

/-- What an item has members for: every locale, or none in particular. -/
def slots (a : α) (locales : List String) : List (Option String) :=
  if S.localized a then locales.map some else [none]

/-- The members of items. -/
def members (items : List α) (locales : List String) : List δ :=
  items.flatMap fun a => (S.slots a locales).filterMap (S.member? a)

/-- The members of the localized ones among items for some codes. -/
def localizedMembers (items : List α) (codes : List String) : List δ :=
  items.flatMap fun a =>
    if S.localized a then codes.filterMap fun code => S.member? a (some code) else []

/-- The locales are codes, and no two members share a handle. -/
structure Distinct (items : List α) (locales : List String) : Prop where
  /-- The locales are codes. -/
  valid : ∀ code ∈ locales, Locale.isValid code = true
  /-- The members have distinct handles. -/
  nodup : ((S.members items locales).map S.handle).Nodup

variable {S} {items : List α} {locales locales₁ locales₂ : List String} {a : α}

@[simp]
theorem some_mem_slots {code : String} :
    some code ∈ S.slots a locales ↔ S.localized a = true ∧ code ∈ locales := by
  unfold slots
  cases S.localized a <;> simp

@[simp]
theorem none_mem_slots : none ∈ S.slots a locales ↔ S.localized a = false := by
  unfold slots
  cases S.localized a <;> simp

/-- An item that may have members has a first one, and any other is for a locale. -/
theorem slots_eq_cons (h : S.localized a = true → locales ≠ []) :
    ∃ slot rest, S.slots a locales = slot :: rest ∧ slot.isSome = S.localized a ∧
      ∀ slot' ∈ rest, slot'.isSome = true := by
  unfold slots
  cases hlocalized : S.localized a with
  | false => exact ⟨none, [], rfl, rfl, fun _ hmem => absurd hmem List.not_mem_nil⟩
  | true =>
    cases locales with
    | nil => exact absurd rfl (h hlocalized)
    | cons code codes => exact ⟨some code, codes.map some, rfl, rfl, by simp⟩

theorem members_cons (a : α) (items : List α) (locales : List String) :
    S.members (a :: items) locales =
      (S.slots a locales).filterMap (S.member? a) ++ S.members items locales :=
  List.flatMap_cons

theorem mem_members {x : δ} : x ∈ S.members items locales ↔
    ∃ a ∈ items, ∃ slot ∈ S.slots a locales, S.member? a slot = some x := by
  simp only [members, List.mem_flatMap, List.mem_filterMap]

/-- A member belongs to the members for other locales iff these have its own. -/
theorem member_mem_iff (ha : a ∈ items) {slot : Option String} (hslot : slot ∈ S.slots a locales₁)
    {x : δ} (hx : S.member? a slot = some x) :
    x ∈ S.members items locales₂ ↔ slot ∈ S.slots a locales₂ := by
  rw [mem_members]
  constructor
  · rintro ⟨b, -, slot', hslot', hx'⟩
    obtain rfl : slot' = slot := (S.locale_member hx').symm.trans (S.locale_member hx)
    cases slot' with
    | none => exact none_mem_slots.mpr (none_mem_slots.mp hslot)
    | some code =>
      exact some_mem_slots.mpr ⟨(some_mem_slots.mp hslot).1, (some_mem_slots.mp hslot').2⟩
  · intro hslot'
    exact ⟨a, ha, slot, hslot', hx⟩

/-- Expanded for two lists of locales, items have one member at most of a handle. A single member is
in both expansions, and of two members for locales the handles give away the codes. -/
theorem Distinct.eq_of_handle (h₁ : S.Distinct items locales₁) (h₂ : S.Distinct items locales₂)
    {x y : δ} (hx : x ∈ S.members items locales₁) (hy : y ∈ S.members items locales₂)
    (h : S.handle x = S.handle y) : x = y := by
  obtain ⟨a, ha, slot, hslot, hax⟩ := mem_members.mp hx
  obtain ⟨b, hb, slot', hslot', hby⟩ := mem_members.mp hy
  have inj₁ : y ∈ S.members items locales₁ → x = y :=
    fun hy' => List.inj_on_of_nodup_map h₁.nodup hx hy' h
  have inj₂ : x ∈ S.members items locales₂ → x = y :=
    fun hx' => List.inj_on_of_nodup_map h₂.nodup hx' hy h
  cases slot with
  | none => exact inj₂ ((member_mem_iff ha hslot hax).mpr (none_mem_slots.mpr
      (none_mem_slots.mp hslot)))
  | some code =>
    cases slot' with
    | none => exact inj₁ ((member_mem_iff hb hslot' hby).mpr (none_mem_slots.mpr
        (none_mem_slots.mp hslot')))
    | some code' =>
      obtain ⟨-, hcode⟩ := some_mem_slots.mp hslot
      obtain ⟨hlocalized, hcode'⟩ := some_mem_slots.mp hslot'
      rw [S.handle_member hax, S.handle_member hby] at h
      obtain ⟨-, rfl⟩ :=
        (Locale.localize_inj (h₁.valid code hcode) (h₂.valid code' hcode')).mp h
      exact inj₁ ((member_mem_iff hb hslot' hby).mpr (some_mem_slots.mpr ⟨hlocalized, hcode⟩))

/-- A member stands out from the members for other locales iff these have no such slot. -/
theorem Distinct.handle_not_mem_iff (h₁ : S.Distinct items locales₁)
    (h₂ : S.Distinct items locales₂) (ha : a ∈ items) {slot : Option String}
    (hslot : slot ∈ S.slots a locales₁) {x : δ} (hx : S.member? a slot = some x) :
    S.handle x ∉ (S.members items locales₂).map S.handle ↔ slot ∉ S.slots a locales₂ := by
  have hmem : x ∈ S.members items locales₁ := mem_members.mpr ⟨a, ha, slot, hslot, hx⟩
  rw [← member_mem_iff ha hslot hx, not_iff_not, List.mem_map]
  constructor
  · rintro ⟨y, hy, e⟩
    rwa [h₁.eq_of_handle h₂ hmem hy e.symm]
  · exact fun hx' => ⟨x, hx', rfl⟩

/-- **What one list of locales adds to another one**: the members of the localized items for the
codes that the other one lacks. -/
theorem Distinct.beyond_members (h₁ : S.Distinct items locales₁)
    (h₂ : S.Distinct items locales₂) :
    Keyed.beyond S.handle (S.members items locales₁) (S.members items locales₂) =
      S.localizedMembers items (locales₁.filter fun code => code ∉ locales₂) := by
  have hstands : ∀ {a : α}, a ∈ items → ∀ {slot : Option String}, slot ∈ S.slots a locales₁ →
      ∀ {x : δ}, S.member? a slot = some x →
        (S.handle x ∉ (S.members items locales₂).map S.handle ↔ slot ∉ S.slots a locales₂) :=
    fun ha _ hslot _ hx => h₁.handle_not_mem_iff h₂ ha hslot hx
  generalize S.members items locales₂ = others at hstands
  rw [Keyed.beyond_eq_filter, members, List.filter_flatMap]
  refine List.flatMap_congr fun a ha => ?_
  rw [List.filter_filterMap]
  cases hlocalized : S.localized a with
  | false =>
    -- a single member is in both expansions
    have hslots : ∀ locales, S.slots a locales = [none] := fun locales => by
      simp [slots, hlocalized]
    rw [hslots, if_neg Bool.false_ne_true, List.filterMap_eq_nil_iff]
    intro slot hslot
    obtain rfl := List.mem_singleton.mp hslot
    rw [Option.filter_eq_none_iff]
    intro x hx
    have hsame := hstands ha (hslots locales₁ ▸ hslot) hx
    simpa [hslots] using hsame
  | true =>
    have hslots : ∀ locales, S.slots a locales = locales.map some := fun locales => by
      simp [slots, hlocalized]
    rw [hslots, if_pos rfl, List.filterMap_map, List.filterMap_filter]
    refine List.filterMap_congr fun code hcode => ?_
    cases hx : S.member? a (some code) with
    | none => simp [hx]
    | some x =>
      have hsame := hstands ha (some_mem_slots.mpr ⟨hlocalized, hcode⟩) hx
      rw [some_mem_slots, and_iff_right hlocalized] at hsame
      simp only [Function.comp_apply, hx, Option.filter_some, decide_eq_true_eq, hsame]

end Spreading

/-! ## Chains of expansions -/

/-- What a chain of expansions collects, where every single expansion is known. -/
theorem eq_flatMap_of_concatMapM {α β : Type} {f : α → Except Misuse (List β)} {g : α → List β} :
    ∀ {l : List α} {bs : List β}, (∀ a ∈ l, ∀ as, f a = .ok as → as = g a) →
      concatMapM f l = .ok bs → bs = l.flatMap g
  | [], _, _, h => by
    cases h
    rfl
  | a :: r, _, hg, h => by
    obtain ⟨first, rest, hfirst, hrest, rfl⟩ := concatMapM_cons_eq_ok h
    rw [List.flatMap_cons, ← hg a List.mem_cons_self first hfirst,
      ← eq_flatMap_of_concatMapM (fun b hb => hg b (List.mem_cons_of_mem a hb)) hrest]

/-! ## Fields and columns -/

namespace FieldDefinition

theorem columnName_eq (f : FieldDefinition) (slot : Option String) :
    f.columnName slot = Locale.spell f.handle slot := by
  cases slot <;> rfl

/-- The column of a field for a locale, or its single column; a relation has none. -/
def column? (f : FieldDefinition) (slot : Option String) : Option ColumnDescription :=
  (f.toColumn? (f.columnName slot)).map fun c => ⟨f.columnName slot, f.handle, slot, c⟩

theorem column?_eq_some_iff {f : FieldDefinition} {slot : Option String} {d : ColumnDescription} :
    f.column? slot = some d ↔
      ∃ c, f.toColumn? (f.columnName slot) = some c ∧ ⟨f.columnName slot, f.handle, slot, c⟩ = d :=
  Option.map_eq_some_iff

theorem column?_of_relation {f : FieldDefinition} (h : f.isRelation = true)
    (slot : Option String) : f.column? slot = none := by
  obtain ⟨handle, kind, localized⟩ := f
  cases kind with
  | relation target => rfl
  | column type size default auto => cases h

theorem filterMap_column?_of_relation {f : FieldDefinition} (h : f.isRelation = true)
    (slots : List (Option String)) : slots.filterMap f.column? = [] :=
  List.filterMap_eq_nil_iff.mpr fun slot _ => column?_of_relation h slot

theorem isSome_column? {f : FieldDefinition} (h : f.isRelation = false) (slot : Option String) :
    (f.column? slot).isSome = true := by
  obtain ⟨handle, kind, localized⟩ := f
  cases kind with
  | relation target => cases h
  | column type size default auto => rfl

/-- How fields are spread: their members are the columns. -/
def spreading : Spreading FieldDefinition ColumnDescription where
  base := handle
  localized := localized
  member? := column?
  handle := ColumnDescription.handle
  locale := ColumnDescription.locale
  handle_member := fun {f slot d} h => by
    obtain ⟨c, -, rfl⟩ := column?_eq_some_iff.mp h
    exact columnName_eq f slot
  locale_member := fun {f slot d} h => by
    obtain ⟨c, -, rfl⟩ := column?_eq_some_iff.mp h
    rfl

theorem columnIn_eq {f : FieldDefinition} (hf : f.isRelation = false) {slot : Option String}
    {cs : List ColumnDescription} (h : f.columnIn slot = .ok cs) :
    cs = (f.column? slot).toList := by
  obtain ⟨c, hc, -, -, rfl, -⟩ := columnIn_ok h hf
  rw [column?, hc]
  rfl

/-- A field that is not refused expands to its members. -/
theorem expand_eq {f : FieldDefinition} {c : CollectionRef} {locales : List String}
    {cs : List ColumnDescription} (h : f.expand c locales = .ok cs) :
    cs = (spreading.slots f locales).filterMap f.column? := by
  cases hf : f.isRelation with
  | true =>
    rw [expand, hf, if_pos rfl] at h
    rw [filterMap_column?_of_relation hf, ← Except.ok.inj h]
  | false =>
    cases hl : f.localized with
    | false =>
      have hslots : spreading.slots f locales = [none] := if_neg (by simp [spreading, hl])
      rw [expand_plain hf hl] at h
      rw [columnIn_eq hf h, hslots, List.filterMap_eq_flatMap_toList, List.flatMap_singleton]
    | true =>
      have hslots : spreading.slots f locales = locales.map some := if_pos hl
      rw [hslots, List.filterMap_map, List.filterMap_eq_flatMap_toList]
      exact eq_flatMap_of_concatMapM (fun code _ _ hcode => columnIn_eq hf hcode)
        (expand_localized h hf hl).2

end FieldDefinition

/-! ## Declared and physical indexes -/

namespace Index

/-- The index covers localized fields of a declaration only. -/
def isLocalized (i : Index) (s : CollectionSchema) : Bool :=
  i.fields.all s.localizes

/-- The index for a locale, or the index itself. -/
def describe (i : Index) : Option String → IndexDescription
  | some code => ⟨Locale.localize i.name code, i.name, some code, i.inLocale code⟩
  | none => ⟨i.name, i.name, none, i⟩

/-- How the indexes of a declaration are spread: their members are the physical indexes. -/
def spreading (s : CollectionSchema) : Spreading Index IndexDescription where
  base := name
  localized := fun i => i.isLocalized s
  member? := fun i slot => some (i.describe slot)
  handle := IndexDescription.handle
  locale := IndexDescription.locale
  handle_member := fun {i slot j} h => by
    obtain rfl := Option.some.inj h
    cases slot <;> rfl
  locale_member := fun {i slot j} h => by
    obtain rfl := Option.some.inj h
    cases slot <;> rfl

/-- An index that is not refused expands to its members. -/
theorem expand_eq {i : Index} {s : CollectionSchema} {locales : List String}
    {is : List IndexDescription} (h : i.expand s locales = .ok is) :
    is = ((spreading s).slots i locales).map i.describe := by
  obtain ⟨hcheck, hexp, -⟩ := expand_ok h
  obtain ⟨k, hk⟩ := List.exists_mem_of_ne_nil _ (misuse?_names_of_check hcheck).2.1
  have hfield : k.field ∈ i.fields := List.mem_map_of_mem hk
  cases hexp with
  | plain hplain =>
    have hlocalized : ¬(spreading s).localized i = true := fun hall => by
      have := List.all_eq_true.mp hall k.field hfield
      rw [hplain k.field hfield] at this
      cases this
    rw [Spreading.slots, if_neg hlocalized]
    rfl
  | localized hall =>
    have hlocalized : (spreading s).localized i = true := List.all_eq_true.mpr hall
    rw [Spreading.slots, if_pos hlocalized, List.map_map]
    rfl

end Index

/-! ## Descriptions -/

namespace Description

variable {s : CollectionSchema} {locales : List String} {d : Description}

/-- **The columns of an accepted declaration** are the members of its fields. -/
theorem columns_ofSchema (h : ofSchema s locales = .ok d) :
    d.columns = FieldDefinition.spreading.members s.fields locales :=
  eq_flatMap_of_concatMapM (fun _ _ _ hf => FieldDefinition.expand_eq hf) (ofSchema_ok h).2.2.1

/-- **The indexes of an accepted declaration** are the members of its indexes. -/
theorem indexes_ofSchema (h : ofSchema s locales = .ok d) :
    d.indexes = (Index.spreading s).members s.indexes locales := by
  have hindexes := eq_flatMap_of_concatMapM (fun _ _ _ hi => Index.expand_eq hi)
    (ofSchema_ok h).2.2.2.1
  rw [hindexes, Spreading.members]
  refine List.flatMap_congr fun i _ => ?_
  exact (congrFun List.filterMap_eq_map _).symm

theorem distinct_columns (h : ofSchema s locales = .ok d) :
    FieldDefinition.spreading.Distinct s.fields locales :=
  ⟨isValid_of_checkAll (ofSchema_ok h).1,
    columns_ofSchema h ▸ (wellFormed_of_ofSchema h).columns_nodup⟩

theorem distinct_indexes (h : ofSchema s locales = .ok d) :
    (Index.spreading s).Distinct s.indexes locales :=
  ⟨isValid_of_checkAll (ofSchema_ok h).1,
    indexes_ofSchema h ▸ (wellFormed_of_ofSchema h).indexes_nodup⟩

end Description

end SchemaMigration
