import Mathlib.Data.List.Nodup
import Mathlib.Data.List.TakeWhile
import SchemaMigration.Proofs.Catalog.Handles
import SchemaMigration.Proofs.Statement.ColumnText

/-!
# What a catalog reports of created tables

The catalog lists the columns of a table with their types and their defaults as these were written
and with their positions in the primary key, and a row for every key field of every index. Here it
is told which rows belong to the statements that created a table and its indexes, read off the texts
of the statements, and what is read from such rows.

* `Statement.columnListings`, `Statement.keyRows`: what there is to report of a statement.
* `Reports`: the rows report just that, besides rows for the index of the primary key.
* `DefinedTable.listings_eq`: the columns to report of a table that was written clause by clause.
* `readColumns_of_reported`, `readKeyRows_of_reported`: what is read from the rows.
* `map_name_keyColumns`: the key columns come in the order of the key.
* **`groupKeys_flatMap`**: the rows of several indexes are grouped into these indexes again.
-/

namespace SchemaMigration

/-! ## Reported rows -/

namespace Catalog

/-- A column of a created table. -/
structure ColumnListing where
  /-- The name. -/
  name : String
  /-- The type as it was written. -/
  type : String
  /-- The default as it was written, if there is one. -/
  default : Option String
  /-- The position in the primary key, from one; zero outside of it. -/
  position : Nat
deriving DecidableEq

/-- The position of a name in a primary key, from one; zero outside of it. -/
def keyPosition (key : List String) (name : String) : Nat :=
  if name ∈ key then key.idxOf name + 1 else 0

end Catalog

/-- The column that an item of a table with a primary key lists. -/
def TableItem.listing? (key : List String) : TableItem → Option Catalog.ColumnListing
  | .column s definition =>
    some ⟨s, Lexeme.typeText definition, Lexeme.defaultText? definition, Catalog.keyPosition key s⟩
  | .key _ => none

/-- The columns of a table. -/
def DefinedTable.listings (t : DefinedTable) : List Catalog.ColumnListing :=
  t.items.filterMap (TableItem.listing? t.keys.flatten)

/-- The key fields of an index. -/
def DefinedIndex.keyRows (i : DefinedIndex) : List Catalog.KeyRow :=
  i.columns.map fun c => ⟨i.name, if i.unique then .unique else .plain, c⟩

/-- The columns of a collection's table if a statement creates it, read off its text. -/
def Statement.columnListings (c : CollectionRef) (s : Statement) : List Catalog.ColumnListing :=
  match s.definedTable? with
  | some t => if t.name = c.identity then t.listings else []
  | none => []

/-- The key fields of an index on a collection's table if a statement creates it, read off its
text. -/
def Statement.keyRows (c : CollectionRef) (s : Statement) : List Catalog.KeyRow :=
  match s.definedIndex? with
  | some i => if i.table = c.identity then i.keyRows else []
  | none => []

namespace Catalog

/-- The row lists the column with its type and its default as they were written. -/
structure ColumnListing.Reported (l : ColumnListing) (r : Row) : Prop where
  /-- The name. -/
  name : Row.find? r "name" = some (.text l.name)
  /-- The type. -/
  type : Row.find? r "type" = some (.text l.type)
  /-- The default, or null. -/
  default : Row.find? r "dflt_value" = some (Value.ofOption (l.default.map .text))
  /-- The position in the primary key. -/
  position : ∃ n : Int64, Row.find? r "pk" = some (.int n) ∧ n.toInt = l.position

/-- The row lists the key field of an index that a statement created. -/
structure KeyRow.Reported (k : KeyRow) (r : Row) : Prop where
  /-- The physical name of the index. -/
  name : Row.find? r "name" = some (.text k.physical)
  /-- A statement created the index. -/
  origin : Row.find? r "origin" = some (.text "c")
  /-- Whether the index is unique. -/
  unique : Row.find? r "is_unique" = some (.int (if k.kind = .unique then 1 else 0))
  /-- The field. -/
  field : Row.find? r "field" = some (.text k.column.field)
  /-- Whether the field descends. -/
  descending : Row.find? r "descending" =
    some (.int (if k.column.direction = .descending then 1 else 0))

/-- The row belongs to the index of a primary key. -/
def ofPrimaryKey (r : Row) : Bool :=
  decide (Row.find? r "origin" = some (.text "pk"))

/-- The rows that SQLite reports of a collection after the statements that create its table and its
indexes. -/
structure Reports (c : CollectionRef) (ss : List Statement) (columnRows indexRows : List Row) :
    Prop where
  /-- One row for every column, in order. -/
  columns : List.Forall₂ ColumnListing.Reported (ss.flatMap (Statement.columnListings c)) columnRows
  /-- One row for every key field of every created index, in order, besides the rows of the primary
  key. -/
  keys : List.Forall₂ KeyRow.Reported (ss.flatMap (Statement.keyRows c))
    (indexRows.filter fun r => !ofPrimaryKey r)
  /-- The index of the primary key has a name. -/
  named : ∀ r ∈ indexRows, ofPrimaryKey r = true →
    ∃ physical, Row.find? r "name" = some (.text physical)

end Catalog

/-! ## Reports of clauses -/

/-- The column that a clause defines, in a table with a primary key. -/
def ColumnClause.listing (key : List String) (c : ColumnClause) : Catalog.ColumnListing :=
  ⟨c.name, c.typeName, c.default.map Value.literal, Catalog.keyPosition key c.name⟩

/-- **The columns to report of a table** that was written clause by clause. -/
theorem DefinedTable.listings_eq {t : DefinedTable} {cs : List ColumnClause}
    {key : Option (List String)}
    (hitems : t.items = cs.map (ColumnClause.item .sqlite) ++ key.toList.map .key)
    (hlegible : ∀ c ∈ cs, LegibleType c.typeName) :
    t.listings = cs.map (ColumnClause.listing t.keys.flatten) := by
  have hclause : ∀ c ∈ cs, TableItem.listing? t.keys.flatten (c.item .sqlite) =
      some (c.listing t.keys.flatten) := by
    intro c hc
    rw [ColumnClause.item, TableItem.listing?, ColumnClause.typeText_lexemes (hlegible c hc),
      ColumnClause.defaultText?_lexemes (hlegible c hc), ColumnClause.listing]
  have hkey :
      (key.toList.map TableItem.key).filterMap (TableItem.listing? t.keys.flatten) = [] := by
    cases key <;> rfl
  rw [listings, hitems, List.filterMap_append, hkey, List.append_nil, List.filterMap_map,
    ← List.filterMap_eq_map]
  exact List.filterMap_congr hclause

example : (Statement.mk ("CREATE TABLE \"post\" (\"id\" INTEGER, " ++
      "\"note\" TEXT DEFAULT 'it''s', PRIMARY KEY (\"id\"))") []).columnListings
    Posts.collection = [⟨"id", "INTEGER", none, 1⟩, ⟨"note", "TEXT", some "'it''s'", 0⟩] := by
  decide +kernel

namespace Catalog

/-! ## Reading reported rows -/

section Reading

variable {c : CollectionRef} {r : Row}

theorem text_of_find? {l : Listing} {column s : String} (h : Row.find? r column = some (.text s)) :
    l.text r column = .ok s := by
  rw [Listing.text, Listing.value, h]
  rfl

theorem integer_of_find? {l : Listing} {column : String} {n : Int64}
    (h : Row.find? r column = some (.int n)) : l.integer r column = .ok n := by
  rw [Listing.integer, Listing.value, h]
  rfl

theorem optionalText_of_find? {l : Listing} {column : String} {s : Option String}
    (h : Row.find? r column = some (Value.ofOption (s.map .text))) :
    l.optionalText r column = .ok s := by
  cases s with
  | none =>
    rw [Listing.optionalText, Listing.value, h]
    rfl
  | some s =>
    have htext : l.text r column = .ok s := text_of_find? h
    rw [Listing.optionalText, Listing.value, h]
    show (do let s ← l.text r column; return some s) = Except.ok (some s)
    rw [htext]
    rfl

/-- What is read of a column. -/
structure ListedColumn.Reads (l : ColumnListing) (c : ListedColumn) : Prop where
  /-- The name. -/
  name : c.column.name = l.name
  /-- The type and the size that the written type stands for. -/
  type : Dialect.sqlite.parseTypeName? l.type = some (c.column.type, c.column.size)
  /-- The default that its text stands for. -/
  default : c.column.default = defaultOf l.default
  /-- The type as it was written. -/
  declared : c.declaredType = l.type
  /-- The position in the primary key. -/
  position : c.position.toInt = l.position

theorem readColumn_of_reported {l : ColumnListing} (h : l.Reported r)
    (htype : (Dialect.sqlite.parseTypeName? l.type).isSome = true) :
    ∃ listed, readColumn c r = .ok listed ∧ listed.Reads l := by
  obtain ⟨⟨type, size⟩, hparse⟩ := Option.isSome_iff_exists.mp htype
  obtain ⟨n, hn, hposition⟩ := h.position
  refine ⟨⟨⟨l.name, type, size, defaultOf l.default, false⟩, l.type, n⟩, ?_,
    ⟨rfl, hparse, rfl, rfl, hposition⟩⟩
  refine bind_eq_ok_iff.mpr ⟨_, text_of_find? h.name, ?_⟩
  refine bind_eq_ok_iff.mpr ⟨_, text_of_find? h.type, ?_⟩
  refine bind_eq_ok_iff.mpr ⟨_, optionalText_of_find? h.default, ?_⟩
  refine bind_eq_ok_iff.mpr ⟨_, integer_of_find? hn, ?_⟩
  rw [hparse]
  rfl

/-- Reported columns are read, in order. -/
theorem readColumns_of_reported : ∀ {ls : List ColumnListing} {rows : List Row},
    List.Forall₂ ColumnListing.Reported ls rows →
      (∀ l ∈ ls, (Dialect.sqlite.parseTypeName? l.type).isSome = true) →
        ∃ listed, readColumns c rows = .ok listed ∧
          List.Forall₂ (fun l (c : ListedColumn) => c.Reads l) ls listed
  | [], _, .nil, _ => ⟨[], rfl, .nil⟩
  | l :: ls, r :: rows, .cons hl hls, htypes => by
    rw [List.forall_mem_cons] at htypes
    obtain ⟨first, hfirst, hreads⟩ := readColumn_of_reported (c := c) hl htypes.1
    obtain ⟨rest, hrest, hall⟩ := readColumns_of_reported hls htypes.2
    exact ⟨first :: rest, bind_eq_ok_iff.mpr ⟨first, hfirst,
      bind_eq_ok_iff.mpr ⟨rest, hrest, rfl⟩⟩, .cons hreads hall⟩

theorem readKeyRow_of_reported {k : KeyRow} (h : k.Reported r) (hkind : k.kind ≠ .primary) :
    readKeyRow c r = .ok (some k) := by
  obtain ⟨physical, kind, field, direction⟩ := k
  refine bind_eq_ok_iff.mpr ⟨_, text_of_find? h.name, ?_⟩
  refine bind_eq_ok_iff.mpr ⟨_, text_of_find? h.origin, ?_⟩
  rw [if_neg (by decide)]
  refine bind_eq_ok_iff.mpr ⟨_, integer_of_find? h.unique, ?_⟩
  refine bind_eq_ok_iff.mpr ⟨_, text_of_find? h.field, ?_⟩
  refine bind_eq_ok_iff.mpr ⟨_, integer_of_find? h.descending, ?_⟩
  cases kind with
  | primary => exact absurd rfl hkind
  | unique => cases direction <;> rfl
  | plain => cases direction <;> rfl

theorem readKeyRow_of_primaryKey {physical : String} (h : ofPrimaryKey r = true)
    (hname : Row.find? r "name" = some (.text physical)) : readKeyRow c r = .ok none := by
  refine bind_eq_ok_iff.mpr ⟨_, text_of_find? hname, ?_⟩
  exact bind_eq_ok_iff.mpr ⟨_, text_of_find? (of_decide_eq_true h), rfl⟩

/-- Reported key fields are read, in order, and the rows of the primary key are passed over. -/
theorem readKeyRows_of_reported : ∀ {rows : List Row} {keys : List KeyRow},
    List.Forall₂ KeyRow.Reported keys (rows.filter fun r => !ofPrimaryKey r) →
      (∀ k ∈ keys, k.kind ≠ .primary) →
        (∀ r ∈ rows, ofPrimaryKey r = true →
          ∃ physical, Row.find? r "name" = some (.text physical)) →
          readKeyRows c rows = .ok keys
  | [], _, h, _, _ => by
    cases h
    rfl
  | r :: rows, keys, h, hkinds, hnamed => by
    rw [List.forall_mem_cons] at hnamed
    cases hr : ofPrimaryKey r with
    | true =>
      rw [List.filter_cons_of_neg (by simp [hr])] at h
      obtain ⟨physical, hname⟩ := hnamed.1 hr
      exact bind_eq_ok_iff.mpr ⟨none, readKeyRow_of_primaryKey hr hname,
        bind_eq_ok_iff.mpr ⟨keys, readKeyRows_of_reported h hkinds hnamed.2, rfl⟩⟩
    | false =>
      rw [List.filter_cons_of_pos (by simp [hr])] at h
      cases h with
      | cons hk hrest =>
        rename_i k keys
        rw [List.forall_mem_cons] at hkinds
        exact bind_eq_ok_iff.mpr ⟨some k, readKeyRow_of_reported hk hkinds.1,
          bind_eq_ok_iff.mpr ⟨keys, readKeyRows_of_reported hrest hkinds.2 hnamed.2, rfl⟩⟩

end Reading

/-! ## Key columns -/

section Key

variable {key : List String} {listed : List ListedColumn}

/-- The key columns are those that the key names. -/
theorem mem_keyColumns
    (hposition : ∀ l ∈ listed, l.position.toInt = keyPosition key l.column.name)
    {l : ListedColumn} : l ∈ keyColumns listed ↔ l ∈ listed ∧ l.column.name ∈ key := by
  rw [keyColumns, List.mem_mergeSort, List.mem_filter]
  refine and_congr_right fun hl => ?_
  rw [decide_eq_true_eq, Int64.lt_iff_toInt_lt, hposition l hl]
  show (0 : Int) < keyPosition key l.column.name ↔ _
  by_cases hkey : l.column.name ∈ key
  · rw [keyPosition, if_pos hkey]
    exact iff_of_true (Int.natCast_pos.mpr (Nat.succ_pos _)) hkey
  · simp [keyPosition, hkey]

/-- **The key columns come in the order of the key.** -/
theorem map_name_keyColumns
    (hposition : ∀ l ∈ listed, l.position.toInt = keyPosition key l.column.name)
    (hnames : (listed.map fun l => l.column.name).Nodup) (hkey : key.Nodup)
    (hcovered : ∀ name ∈ key, name ∈ listed.map fun l => l.column.name) :
    ((keyColumns listed).map fun l => l.column.name) = key := by
  have hmem : ∀ name, name ∈ (keyColumns listed).map (fun l => l.column.name) ↔ name ∈ key := by
    intro name
    simp only [List.mem_map, mem_keyColumns hposition]
    constructor
    · rintro ⟨l, ⟨-, hl⟩, rfl⟩
      exact hl
    · intro hname
      obtain ⟨l, hl, rfl⟩ := List.mem_map.mp (hcovered name hname)
      exact ⟨l, ⟨hl, hname⟩, rfl⟩
  have hnodup : ((keyColumns listed).map fun l => l.column.name).Nodup := by
    have hperm := (List.mergeSort_perm (listed.filter fun c => decide (0 < c.position))
      fun a b => decide (a.position ≤ b.position)).map fun l => l.column.name
    exact hperm.nodup_iff.mpr (hnames.sublist (List.filter_sublist.map _))
  -- both lists have the same names and are sorted by their places in the key
  have hsorted : ((keyColumns listed).map fun l => l.column.name).Pairwise
      fun a b => key.idxOf a ≤ key.idxOf b := by
    rw [List.pairwise_map]
    have hle : (keyColumns listed).Pairwise fun a b => decide (a.position ≤ b.position) = true := by
      refine List.pairwise_mergeSort ?_ ?_ _
      · intro a b c hab hbc
        simp only [decide_eq_true_eq, Int64.le_iff_toInt_le] at *
        omega
      · intro a b
        simp only [Bool.or_eq_true, decide_eq_true_eq, Int64.le_iff_toInt_le]
        omega
    refine hle.imp_of_mem fun {a b} ha hb hab => ?_
    obtain ⟨ha, haKey⟩ := (mem_keyColumns hposition).mp ha
    obtain ⟨hb, hbKey⟩ := (mem_keyColumns hposition).mp hb
    rw [decide_eq_true_eq, Int64.le_iff_toInt_le, hposition a ha, hposition b hb, keyPosition,
      keyPosition, if_pos haKey, if_pos hbKey] at hab
    omega
  have hkeySorted : key.Pairwise fun a b => key.idxOf a ≤ key.idxOf b := by
    rw [List.pairwise_iff_getElem]
    intro i j hi hj hij
    rw [hkey.idxOf_getElem, hkey.idxOf_getElem]
    omega
  refine List.Perm.eq_of_pairwise ?_ hsorted hkeySorted
    ((List.perm_ext_iff_of_nodup hnodup hkey).mpr hmem)
  intro a b ha hb hab hba
  exact (List.idxOf_inj ((hmem a).mp ha)).mp (Nat.le_antisymm hab hba)

end Key

end Catalog

/-! ## Groups of key fields -/

/-- The key fields of an index of a collection. -/
def Index.keyRows (c : CollectionRef) (i : Index) : List Catalog.KeyRow :=
  i.columns.map fun column => ⟨indexName c i.name, i.kind, column⟩

theorem indexName_inj {c : CollectionRef} {a b : String} :
    indexName c a = indexName c b ↔ a = b := by
  constructor
  · intro h
    rw [← indexHandle_indexName c a, h, indexHandle_indexName]
  · rintro rfl
    rfl

namespace Catalog

/-- **The key fields of several indexes are grouped into these indexes again**, if their names are
distinct and none is the reserved one. -/
theorem groupKeys_flatMap (c : CollectionRef) : ∀ {is : List Index},
    (∀ i ∈ is, i.columns ≠ [] ∧ i.kind ≠ .primary ∧ i.name ≠ primaryName) →
      (is.map Index.name).Nodup → groupKeys c none (is.flatMap (Index.keyRows c)) = is
  | [], _, _ => rfl
  | ⟨name, kind, columns⟩ :: is, h, hnames => by
    rw [List.forall_mem_cons] at h
    obtain ⟨⟨hcolumns, hkind, hname⟩, hrest⟩ := h
    rw [List.map_cons, List.nodup_cons] at hnames
    obtain ⟨first, others, rfl⟩ := List.exists_cons_of_ne_nil hcolumns
    have hstart : startIndex? c ⟨indexName c name, kind, first⟩ =
        some (indexName c name, ⟨name, kind, [first]⟩) := by
      simp only [startIndex?, indexHandle_indexName, if_neg hname]
      cases kind with
      | primary => exact absurd rfl hkind
      | unique => rfl
      | plain => rfl
    -- the group ends with the rows of this index, for the others have other names
    have hown : ∀ k ∈ others.map fun column => KeyRow.mk (indexName c name) kind column,
        KeyRow.together ⟨indexName c name, kind, first⟩ k = true := by
      rw [List.forall_mem_map]
      exact fun column _ => beq_self_eq_true _
    have hothers : ∀ k ∈ is.flatMap (Index.keyRows c),
        ¬KeyRow.together ⟨indexName c name, kind, first⟩ k = true := by
      intro k hk htogether
      obtain ⟨i, hi, hk⟩ := List.mem_flatMap.mp hk
      obtain ⟨column, -, rfl⟩ := List.mem_map.mp hk
      have hsame : name = i.name := indexName_inj.mp (beq_iff_eq.mp htogether)
      have hmem : i.name ∈ is.map Index.name := List.mem_map_of_mem hi
      exact hnames.1 (hsame ▸ hmem)
    have htake : (is.flatMap (Index.keyRows c)).takeWhile
        (KeyRow.together ⟨indexName c name, kind, first⟩) = [] :=
      List.takeWhile_eq_nil_iff.mpr fun hl => hothers _ (List.getElem_mem hl)
    have hdrop : (is.flatMap (Index.keyRows c)).dropWhile
        (KeyRow.together ⟨indexName c name, kind, first⟩) = is.flatMap (Index.keyRows c) :=
      List.dropWhile_eq_self_iff.mpr fun hl => hothers _ (List.getElem_mem hl)
    rw [List.flatMap_cons]
    show groupKeys c (startIndex? c ⟨indexName c name, kind, first⟩)
      ((others.map fun column => KeyRow.mk (indexName c name) kind column) ++
        is.flatMap (Index.keyRows c)) = _
    rw [hstart, groupKeys_some c ⟨indexName c name, kind, first⟩,
      List.takeWhile_append_of_pos hown, List.dropWhile_append_of_pos hown, htake, hdrop,
      groupKeys_flatMap c hrest hnames.2, List.append_nil, List.map_map]
    simp [Function.comp_def]

end Catalog

end SchemaMigration
