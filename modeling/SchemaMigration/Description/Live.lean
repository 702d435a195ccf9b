import SchemaMigration.Description

/-!
# Recognizing localization

A live collection says nothing of locales; they are recognized by the names of its columns. A base
handle is a group when it has a column for every configured locale, and the columns whose names are
cut into such a base and a locale belong to it. An index belongs to a group of indexes in the same
way, provided that every index counted covers columns of its own locale only, which themselves
belong to groups.

Model of `from_live`.
-/

namespace SchemaMigration

/-- The base handles that occur with every locale (`complete_groups`). -/
def completeGroups (handles locales : List String) : List String :=
  let cuts := (handles.filterMap Locale.splitLocalized?).filter fun cut => locales.contains cut.2
  (cuts.map Prod.fst).filter fun base => locales.all fun code => cuts.contains (base, code)

/-- The base and the locale of a handle among groups (`group_of`); the handle itself outside of
them. -/
def groupOf (groups : List String) (handle : String) : String × Option String :=
  match Locale.splitLocalized? handle with
  | some (base, code) => if groups.contains base then (base, some code) else (handle, none)
  | none => (handle, none)

/-- The index covers columns of its own locale only, which belong to groups
(`covers_own_locale`). -/
def Index.coversOwnLocale (i : Index) (groups : List String) : Bool :=
  match Locale.splitLocalized? i.name with
  | none => false
  | some (_, code) =>
    !i.columns.isEmpty && i.columns.all fun c =>
      match Locale.splitLocalized? c.field with
      | some (base, own) => own == code && groups.contains base
      | none => false

namespace LiveCollection

/-- The groups of the columns. -/
def columnGroups (live : LiveCollection) (locales : List String) : List String :=
  completeGroups (live.columns.map Column.name) locales

/-- The groups of the indexes. -/
def indexGroups (live : LiveCollection) (locales : List String) : List String :=
  let groups := live.columnGroups locales
  completeGroups ((live.indexes.filter fun i => i.coversOwnLocale groups).map Index.name) locales

/-- The description of a live column. -/
def describeColumn (live : LiveCollection) (locales : List String) (c : Column) :
    ColumnDescription :=
  let (base, locale) := groupOf (live.columnGroups locales) c.name
  ⟨c.name, base, locale, c⟩

/-- The description of a live index. -/
def describeIndex (live : LiveCollection) (locales : List String) (i : Index) :
    IndexDescription :=
  let (base, locale) :=
    if i.coversOwnLocale (live.columnGroups locales) then
      groupOf (live.indexGroups locales) i.name
    else (i.name, none)
  ⟨i.name, base, locale, i⟩

end LiveCollection

/-- The description of a live collection, its localization recognized (`from_live`). -/
def Description.ofLive (live : LiveCollection) (locales : List String) : Description :=
  ⟨live.collection, live.columns.map (live.describeColumn locales),
    live.indexes.map (live.describeIndex locales)⟩

end SchemaMigration
