import SchemaMigration.Proofs.Catalog.Created
import SchemaMigration.Proofs.Catalog.Groups

/-!
# Rows of physical indexes

The rows of one physical index stand next to each other in the listing of index keys. Then every row
that does not belong to the primary key counts for the index of its name and for no other, and the
described indexes are the physical ones in the order of their first rows.

About `decode_description` and `index_handle`.

* `Adjacent`: between two equal names there is no other name.
* `splitBy_together_eq`: the runs of adjacent rows are the rows of the physical indexes.
* `readKeyRows_listed`: what is read of the rows.
* **`Catalog.describe_attributes`**: the secondary indexes of a described collection.
-/

namespace SchemaMigration

namespace Catalog

/-! ## Adjacent names -/

/-- Between two equal names there is no other name. -/
def Adjacent {α : Type} (names : List α) : Prop :=
  ∀ p q, [p, q, p].Sublist names → q = p

theorem Adjacent.sublist {α : Type} {names names' : List α} (h : Adjacent names)
    (hsub : names'.Sublist names) : Adjacent names' :=
  fun p q hpq => h p q (hpq.trans hsub)

theorem Adjacent.of_map {α β : Type} {f : α → β} (hf : Function.Injective f) {names : List α}
    (h : Adjacent (names.map f)) : Adjacent names :=
  fun p q hpq => hf (h (f p) (f q) (hpq.map f))

/-! ## Rows of one physical index -/

/-- The names of the physical indexes, in the order of their first rows. -/
def physicalNames (keys : List KeyRow) : List String :=
  (keys.map KeyRow.physical).eraseDups

/-- The rows of a physical index, in order. -/
def rowsOf (keys : List KeyRow) (physical : String) : List KeyRow :=
  keys.filter fun k => k.physical == physical

/-- After the rows of the first index there is none of them left. -/
theorem takeWhile_together_eq {k : KeyRow} : ∀ {r : List KeyRow},
    Adjacent ((k :: r).map KeyRow.physical) →
      r.takeWhile k.together = r.filter k.together ∧
        r.dropWhile k.together = r.filter fun x => !k.together x
  | [], _ => ⟨rfl, rfl⟩
  | x :: r, h => by
    by_cases hx : k.together x = true
    · have hrest : Adjacent ((k :: r).map KeyRow.physical) :=
        h.sublist (((List.sublist_cons_self x r).cons_cons k).map KeyRow.physical)
      obtain ⟨htake, hdrop⟩ := takeWhile_together_eq hrest
      simp [hx, htake, hdrop]
    · -- The name of `k` does not come again after that of `x`.
      have hnone : ∀ y ∈ r, k.together y = false := by
        intro y hy
        by_contra hsame
        have hsame : k.physical = y.physical := by simpa [KeyRow.together] using hsame
        have hsub : [k, x, y].Sublist (k :: x :: r) :=
          ((List.singleton_sublist.mpr hy).cons_cons x).cons_cons k
        have hphysical := h k.physical x.physical (by simpa [hsame] using hsub.map KeyRow.physical)
        exact hx (by simp [KeyRow.together, hphysical])
      have hx : k.together x = false := eq_false_of_ne_true hx
      have htake : r.filter k.together = [] :=
        List.filter_eq_nil_iff.mpr fun y hy => by simp [hnone y hy]
      have hdrop : (r.filter fun y => !k.together y) = r :=
        List.filter_eq_self.mpr fun y hy => by simp [hnone y hy]
      simp [hx, htake, hdrop]

/-- The rows of the first index come first, and the others without them. -/
theorem map_rowsOf_cons (k : KeyRow) (r : List KeyRow) :
    (physicalNames (k :: r)).map (rowsOf (k :: r)) =
      (k :: r.filter k.together) ::
        (physicalNames (r.filter fun x => !k.together x)).map
          (rowsOf (r.filter fun x => !k.together x)) := by
  have hcomm : ∀ x : KeyRow, (x.physical == k.physical) = k.together x := fun x => BEq.comm
  have hnames : physicalNames (k :: r) =
      k.physical :: physicalNames (r.filter fun x => !k.together x) := by
    unfold physicalNames
    rw [List.map_cons, List.eraseDups_cons, List.filter_map]
    simp only [Function.comp_def, hcomm]
  have hfirst : rowsOf (k :: r) k.physical = k :: r.filter k.together := by
    unfold rowsOf
    rw [List.filter_cons_of_pos (by simp)]
    simp only [hcomm]
  rw [hnames, List.map_cons, hfirst]
  refine congrArg _ (List.map_congr_left fun p hp => ?_)
  have hne : k.physical ≠ p := by
    obtain ⟨x, hx, rfl⟩ := List.mem_map.mp (List.mem_eraseDups.mp hp)
    have hx := (List.mem_filter.mp hx).2
    simpa [KeyRow.together] using hx
  unfold rowsOf
  rw [List.filter_cons_of_neg (by simpa using hne), List.filter_filter]
  refine List.filter_congr fun x _ => ?_
  by_cases hx : x.physical = p
  · simp [KeyRow.together, hx, hne]
  · simp [hx]

/-- **Adjacent rows are cut into the rows of the physical indexes.** -/
theorem splitBy_together_eq : ∀ {keys : List KeyRow}, Adjacent (keys.map KeyRow.physical) →
    keys.splitBy KeyRow.together = (physicalNames keys).map (rowsOf keys)
  | [], _ => rfl
  | k :: r, h => by
    obtain ⟨htake, hdrop⟩ := takeWhile_together_eq h
    have hrest : (r.filter fun x => !k.together x).splitBy KeyRow.together = _ :=
      splitBy_together_eq (h.sublist
        ((List.filter_sublist.trans (List.sublist_cons_self k r)).map KeyRow.physical))
    rw [splitBy_together_cons, htake, hdrop, hrest, map_rowsOf_cons]
termination_by keys => keys.length
decreasing_by exact Nat.lt_succ_of_le (List.length_filter_le _ _)

/-- The index of a physical name, under its handle, unless that is the reserved one: as unique as
its first row says, over the fields of all its rows. -/
def indexOf? (c : CollectionRef) (keys : List KeyRow) (physical : String) : Option Index :=
  if indexHandle c physical = primaryName then none
  else (rowsOf keys physical).head?.map fun first =>
    ⟨indexHandle c physical, first.kind, (rowsOf keys physical).map KeyRow.column⟩

/-- The index of a group is that of its physical name. -/
theorem ofRun?_rowsOf (c : CollectionRef) (keys : List KeyRow) (physical : String) :
    (KeyGroup.ofRun? (rowsOf keys physical)).bind (KeyGroup.index? c) =
      indexOf? c keys physical := by
  unfold indexOf?
  cases hrows : rowsOf keys physical with
  | nil => simp [KeyGroup.ofRun?]
  | cons first rest =>
    have hfirst : first ∈ rowsOf keys physical := hrows ▸ List.mem_cons_self
    obtain rfl : first.physical = physical := beq_iff_eq.mp (List.mem_filter.mp hfirst).2
    rfl

/-- The indexes of the groups are those of the physical names. -/
theorem filterMap_index?_keyGroups (c : CollectionRef) {keys : List KeyRow}
    (h : Adjacent (keys.map KeyRow.physical)) :
    (keyGroups keys).filterMap (KeyGroup.index? c) =
      (physicalNames keys).filterMap (indexOf? c keys) := by
  unfold keyGroups
  rw [splitBy_together_eq h, List.filterMap_map, List.filterMap_filterMap]
  exact List.filterMap_congr fun p _ => ofRun?_rowsOf c keys p

/-- Every row counts for one physical index. -/
theorem flatMap_rowsOf {keys : List KeyRow} (h : Adjacent (keys.map KeyRow.physical)) :
    (physicalNames keys).flatMap (rowsOf keys) = keys := by
  rw [List.flatMap_def, ← splitBy_together_eq h, List.flatten_splitBy]

/-! ## Reading the rows -/

/-- The name of the index that a row is about. -/
def indexName? (r : Row) : Option String :=
  (Row.find? r "name").bind Value.asText?

/-- The row is about an index that does not belong to the primary key. -/
def ofSecondary (r : Row) : Bool :=
  (Row.find? r "origin").bind Value.asText? != some "pk"

/-- The row lists the key field of an index. -/
structure KeyRow.Listed (r : Row) (k : KeyRow) : Prop where
  /-- The physical name of the index. -/
  name : indexName? r = some k.physical
  /-- Whether the index is unique. -/
  kind : ∃ n, (Row.find? r "is_unique").map Value.asInteger = some n ∧
    k.kind = if n = 0 then .plain else .unique
  /-- The field. -/
  field : (Row.find? r "field").bind Value.asText? = some k.column.field
  /-- Whether the field descends. -/
  direction : ∃ n, (Row.find? r "descending").map Value.asInteger = some n ∧
    k.column.direction = if n = 0 then .ascending else .descending

/-- What is read of a row: its key field, unless it belongs to the primary key. -/
theorem readKeyRow_listed {c : CollectionRef} {r : Row} {key : Option KeyRow}
    (h : readKeyRow c r = .ok key) :
    (ofSecondary r = false ∧ key = none) ∨
      ofSecondary r = true ∧ ∃ k, key = some k ∧ k.Listed r := by
  obtain ⟨physical, hphysical, h⟩ := bind_eq_ok_iff.mp h
  obtain ⟨origin, horigin, h⟩ := bind_eq_ok_iff.mp h
  have hphysical : indexName? r = some physical := Listing.text_eq_ok_iff.mp hphysical
  have horigin := Listing.text_eq_ok_iff.mp horigin
  split at h
  · rename_i hpk
    cases h
    exact Or.inl ⟨by simp [ofSecondary, horigin, hpk], rfl⟩
  · rename_i hpk
    obtain ⟨unique, hunique, h⟩ := bind_eq_ok_iff.mp h
    obtain ⟨field, hfield, h⟩ := bind_eq_ok_iff.mp h
    obtain ⟨descending, hdescending, h⟩ := bind_eq_ok_iff.mp h
    cases h
    exact Or.inr ⟨by simpa [ofSecondary, horigin] using hpk, _, rfl,
      hphysical, ⟨unique, Listing.integer_eq_ok_iff.mp hunique, rfl⟩,
      Listing.text_eq_ok_iff.mp hfield, ⟨descending, Listing.integer_eq_ok_iff.mp hdescending, rfl⟩⟩

/-- The key fields that are read are those of the rows outside of the primary key. -/
theorem readKeyRows_listed {c : CollectionRef} : ∀ {rows : List Row} {keys : List KeyRow},
    readKeyRows c rows = .ok keys →
      List.Forall₂ KeyRow.Listed (rows.filter ofSecondary) keys
  | [], _, h => by
    cases h
    exact .nil
  | r :: rows, _, h => by
    obtain ⟨key, hkey, h⟩ := bind_eq_ok_iff.mp h
    obtain ⟨keys, hkeys, h⟩ := bind_eq_ok_iff.mp h
    cases h
    obtain ⟨hr, rfl⟩ | ⟨hr, k, rfl, hk⟩ := readKeyRow_listed hkey
    · rw [List.filter_cons_of_neg (by simp [hr])]
      exact readKeyRows_listed hkeys
    · rw [List.filter_cons_of_pos hr]
      exact .cons hk (readKeyRows_listed hkeys)

theorem Adjacent.keys {rows : List Row} {keys : List KeyRow}
    (h : Adjacent (rows.map indexName?))
    (hlisted : List.Forall₂ KeyRow.Listed rows keys) :
    Adjacent (keys.map KeyRow.physical) := by
  have hnames : rows.map indexName? = (keys.map KeyRow.physical).map some := by
    rw [← List.forall₂_eq_eq_eq, List.map_map, List.forall₂_map_left_iff,
      List.forall₂_map_right_iff]
    exact hlisted.imp fun _ _ hk => hk.name
  rw [hnames] at h
  exact h.of_map fun _ _ => Option.some.inj

/-! ## Described collections -/

/-- **The secondary indexes of a described collection**, where the rows of one physical index are
adjacent: those of the physical indexes outside of the primary key, in the order of their first
rows, each over the fields of its own rows; and every row counts for one of them. -/
theorem describe_attributes {c : CollectionRef} {columnRows indexRows tableRows : List Row}
    {live : LiveCollection} (h : describe c columnRows indexRows tableRows = .ok live)
    (hadjacent : Adjacent (indexRows.map indexName?)) :
    ∃ keys, List.Forall₂ KeyRow.Listed (indexRows.filter ofSecondary) keys ∧
      live.indexes.filter (fun i => !i.isPrimary) =
        (physicalNames keys).filterMap (indexOf? c keys) ∧
      (physicalNames keys).flatMap (rowsOf keys) = keys := by
  obtain ⟨-, groups, hgroups, hindexes⟩ := describe_groups h
  obtain ⟨keys, hkeys, rfl⟩ := map_eq_ok_iff.mp hgroups
  have hlisted := readKeyRows_listed hkeys
  have hsecondary : Adjacent (keys.map KeyRow.physical) :=
    (hadjacent.sublist (List.filter_sublist.map indexName?)).keys hlisted
  refine ⟨keys, hlisted, ?_, flatMap_rowsOf hsecondary⟩
  rw [hindexes, filterMap_index?_keyGroups c hsecondary]

end Catalog

/-! ## An example -/

namespace Posts

/-- The rows of an index over two fields, of the primary key, of an index whose handle is reserved,
and of one that is not named after the table. -/
def listedRows : List Row :=
  [keyRow "post_rank" "c" 1 "rank" 1, keyRow "post_rank" "c" 1 "title" 0,
    keyRow "sqlite_autoindex_post_1" "pk" 1 "title" 0, keyRow "post_primary" "c" 0 "rank" 0,
    keyRow "titles" "c" 0 "title" 0]

/-- The columns of the posts. -/
def listedColumns : List Row := [columnRow "rank" "TEXT" .null 0, columnRow "title" "TEXT" .null 0]

/-- The indexes that are left: one over both fields, and one under its own name. -/
def keptIndexes : List Index :=
  [⟨"rank", .unique, [⟨"rank", .descending⟩, ⟨"title", .ascending⟩]⟩,
    ⟨"titles", .plain, [⟨"title", .ascending⟩]⟩]

/-- The posts as they are described. -/
def kept : LiveCollection :=
  ⟨collection, [.plain "rank" .text, .plain "title" .text], keptIndexes⟩

theorem describe_listedRows :
    Catalog.describe collection listedColumns listedRows [] = .ok kept := by
  cbv

theorem adjacent_listedRows : Catalog.Adjacent (listedRows.map Catalog.indexName?) := by
  have hnames : ∀ p ∈ listedRows.map Catalog.indexName?, ∀ q ∈ listedRows.map Catalog.indexName?,
      [p, q, p].Sublist (listedRows.map Catalog.indexName?) → q = p := by
    decide
  intro p q h
  exact hnames p (h.subset (by simp)) q (h.subset (by simp)) h

end Posts

/-- The primary key and the index whose handle is reserved are passed over; the others have all of
their fields. -/
theorem Catalog.describe_of_posts_attributes :
    Catalog.describe Posts.collection Posts.listedColumns Posts.listedRows [] = .ok Posts.kept ∧
      Adjacent (Posts.listedRows.map indexName?) ∧
      ∃ keys, List.Forall₂ KeyRow.Listed (Posts.listedRows.filter ofSecondary) keys ∧
        Posts.keptIndexes = (physicalNames keys).filterMap (indexOf? Posts.collection keys) ∧
        (physicalNames keys).flatMap (rowsOf keys) = keys :=
  ⟨Posts.describe_listedRows, Posts.adjacent_listedRows,
    Catalog.describe_attributes Posts.describe_listedRows Posts.adjacent_listedRows⟩

end SchemaMigration
