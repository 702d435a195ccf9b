import Mathlib.Data.List.SplitBy
import SchemaMigration.Catalog.Describe
import SchemaMigration.Proofs.Outcome

/-!
# Groups of index rows

The listing of index keys has a row for every field of every index. Adjacent rows of one physical
index belong together, and every group becomes an index under the handle of its name, unless that is
the reserved one.

* `keyGroups`: the groups of key rows; `keyGroups_cons`: the first group is the longest run of rows
  of the first index.
* **`groupKeys_eq`**: reading the rows one by one gives the indexes of the groups.
* `describe_groups`: the indexes of a described collection are the primary one and those of the
  groups.
-/

namespace SchemaMigration.Catalog

/-- Adjacent key rows of one physical index. -/
structure KeyGroup where
  /-- The physical name. -/
  physical : String
  /-- The kind, as the first row has it. -/
  kind : IndexKind
  /-- The fields of all rows. -/
  columns : List IndexColumn
deriving DecidableEq

/-- The rows are of one physical index. -/
def KeyRow.together (a b : KeyRow) : Bool :=
  a.physical == b.physical

/-- The group of rows that belong together. -/
def KeyGroup.ofRun? : List KeyRow → Option KeyGroup
  | [] => none
  | k :: r => some ⟨k.physical, k.kind, (k :: r).map KeyRow.column⟩

/-- The groups of adjacent rows, in order. -/
def keyGroups (keys : List KeyRow) : List KeyGroup :=
  (keys.splitBy KeyRow.together).filterMap KeyGroup.ofRun?

/-- The groups in the rows of a listing of index keys. -/
def readGroups (c : CollectionRef) (rows : List Row) : Except Error (List KeyGroup) :=
  (readKeyRows c rows).map keyGroups

/-- The index of a group under the handle of its physical name; none for the reserved handle. -/
def KeyGroup.index? (c : CollectionRef) (g : KeyGroup) : Option Index :=
  if indexHandle c g.physical = primaryName then none
  else some ⟨indexHandle c g.physical, g.kind, g.columns⟩

theorem KeyGroup.index?_eq_some_iff {c : CollectionRef} {g : KeyGroup} {i : Index} :
    g.index? c = some i ↔ indexHandle c g.physical ≠ primaryName ∧
      i = ⟨indexHandle c g.physical, g.kind, g.columns⟩ := by
  unfold index?
  by_cases h : indexHandle c g.physical = primaryName
  · simp [h]
  · simp [h, eq_comm]

/-- A group has the name and the kind of its first row. -/
theorem exists_row {keys : List KeyRow} {g : KeyGroup} (h : g ∈ keyGroups keys) :
    ∃ k ∈ keys, g.physical = k.physical ∧ g.kind = k.kind := by
  obtain ⟨run, hrun, hg⟩ := List.mem_filterMap.mp h
  cases run with
  | nil => cases hg
  | cons k r =>
    cases hg
    have hk : k ∈ (keys.splitBy KeyRow.together).flatten :=
      List.mem_flatten.mpr ⟨_, hrun, List.mem_cons_self⟩
    rw [List.flatten_splitBy] at hk
    exact ⟨k, hk, rfl, rfl⟩

/-! ## The first group -/

theorem isChain_together {k : KeyRow} {r : List KeyRow} (h : ∀ x ∈ r, k.together x = true) :
    List.IsChain (fun x y => KeyRow.together x y = true) (k :: r) := by
  induction r generalizing k with
  | nil => exact List.isChain_singleton k
  | cons x r ih =>
    rw [List.forall_mem_cons] at h
    refine List.isChain_cons_cons.mpr ⟨h.1, ih fun y hy => ?_⟩
    have hy := h.2 y hy
    have hx := h.1
    unfold KeyRow.together at hx hy ⊢
    rw [beq_iff_eq] at hx hy ⊢
    rw [← hx, hy]

theorem splitBy_together_cons (k : KeyRow) (r : List KeyRow) :
    (k :: r).splitBy KeyRow.together =
      (k :: r.takeWhile k.together) :: (r.dropWhile k.together).splitBy KeyRow.together := by
  have hrun : ∀ x ∈ r.takeWhile k.together, k.together x = true :=
    List.all_eq_true.mp List.all_takeWhile
  have hbreak : ∀ x ∈ (k :: r.takeWhile k.together).getLast?,
      ∀ y ∈ (r.dropWhile k.together).head?, x.together y = false := by
    intro x hx y hy
    have hx : k.physical = x.physical := by
      rcases List.mem_cons.mp (List.mem_of_getLast? hx) with rfl | hx
      · rfl
      · exact beq_iff_eq.mp (hrun x hx)
    have hy : k.together y = false := by
      have := List.head?_dropWhile_not k.together r
      rw [Option.mem_def.mp hy] at this
      simpa using this
    unfold KeyRow.together at hy ⊢
    rwa [← hx]
  have hcut : k :: r = (k :: r.takeWhile k.together) ++ r.dropWhile k.together := by
    rw [List.cons_append, List.takeWhile_append_dropWhile]
  rw [hcut, List.splitBy_append hbreak,
    List.splitBy_of_isChain (List.cons_ne_nil _ _) (isChain_together hrun)]
  rfl

theorem keyGroups_cons (k : KeyRow) (r : List KeyRow) :
    keyGroups (k :: r) =
      ⟨k.physical, k.kind, (k :: r.takeWhile k.together).map KeyRow.column⟩ ::
        keyGroups (r.dropWhile k.together) := by
  rw [keyGroups, splitBy_together_cons]
  rfl

/-! ## Reading the rows one by one -/

/-- A started index takes in the rows that belong to it. -/
theorem groupKeys_some (c : CollectionRef) (k : KeyRow) (index : Index) (r : List KeyRow) :
    groupKeys c (some (k.physical, index)) r =
      { index with columns := index.columns ++ (r.takeWhile k.together).map KeyRow.column } ::
        groupKeys c none (r.dropWhile k.together) := by
  induction r generalizing index with
  | nil => simp [groupKeys]
  | cons x r ih =>
    by_cases h : k.physical = x.physical
    · have htogether : k.together x = true := beq_iff_eq.mpr h
      rw [groupKeys, if_pos h, ih, List.takeWhile_cons, List.dropWhile_cons, htogether]
      simp [Index.extend]
    · have htogether : k.together x = false := beq_eq_false_iff_ne.mpr h
      rw [groupKeys, if_neg h, List.takeWhile_cons, List.dropWhile_cons, htogether]
      simp [groupKeys]

/-- The rows of an index that is passed over are passed over. -/
theorem groupKeys_none {c : CollectionRef} {k : KeyRow} (hk : startIndex? c k = none)
    (r : List KeyRow) : groupKeys c none r = groupKeys c none (r.dropWhile k.together) := by
  induction r with
  | nil => rfl
  | cons x r ih =>
    by_cases h : k.physical = x.physical
    · have hx : startIndex? c x = none := by
        unfold startIndex? at hk ⊢
        simpa [← h] using hk
      have htogether : k.together x = true := beq_iff_eq.mpr h
      rw [List.dropWhile_cons, if_pos htogether, ← ih, groupKeys, hx]
    · have htogether : k.together x = false := beq_eq_false_iff_ne.mpr h
      rw [List.dropWhile_cons, if_neg (by simp [htogether])]

/-- **Reading key rows one by one gives the indexes of their groups.** -/
theorem groupKeys_eq (c : CollectionRef) : ∀ {keys : List KeyRow},
    (∀ k ∈ keys, k.kind ≠ .primary) →
      groupKeys c none keys = (keyGroups keys).filterMap (KeyGroup.index? c)
  | [], _ => rfl
  | k :: r, h => by
    rw [List.forall_mem_cons] at h
    have hrest : groupKeys c none (r.dropWhile k.together) = _ := groupKeys_eq c fun x hx =>
      h.2 x ((List.dropWhile_sublist _).mem hx)
    rw [keyGroups_cons, List.filterMap_cons, ← hrest]
    show groupKeys c (startIndex? c k) r = _
    by_cases hhandle : indexHandle c k.physical = primaryName
    · have hstart : startIndex? c k = none := if_pos hhandle
      simp only [KeyGroup.index?, hhandle, if_true]
      rw [hstart, groupKeys_none hstart]
    · have hmake : Index.make (indexHandle c k.physical) k.kind [k.column] =
          ⟨indexHandle c k.physical, k.kind, [k.column]⟩ := by
        unfold Index.make
        cases hkind : k.kind with
        | primary => exact absurd hkind h.1
        | unique => rfl
        | plain => rfl
      have hstart : startIndex? c k =
          some (k.physical, ⟨indexHandle c k.physical, k.kind, [k.column]⟩) := by
        rw [← hmake]
        exact if_neg hhandle
      simp only [KeyGroup.index?, hhandle, if_false]
      rw [hstart, groupKeys_some]
      rfl
termination_by keys => keys.length
decreasing_by exact Nat.lt_succ_of_le (List.dropWhile_sublist _).length_le

/-! ## Described collections -/

/-- No row of a secondary index is taken for a primary one. -/
theorem kind_of_readKeyRow {c : CollectionRef} {r : Row} {k : KeyRow}
    (h : readKeyRow c r = .ok (some k)) : k.kind ≠ .primary := by
  obtain ⟨physical, -, h⟩ := bind_eq_ok_iff.mp h
  obtain ⟨origin, -, h⟩ := bind_eq_ok_iff.mp h
  split at h
  · cases h
  · obtain ⟨unique, -, h⟩ := bind_eq_ok_iff.mp h
    obtain ⟨field, -, h⟩ := bind_eq_ok_iff.mp h
    obtain ⟨descending, -, h⟩ := bind_eq_ok_iff.mp h
    cases h
    show (if unique = 0 then IndexKind.plain else .unique) ≠ .primary
    split <;> decide

theorem kind_of_readKeyRows {c : CollectionRef} : ∀ {rows : List Row} {keys : List KeyRow},
    readKeyRows c rows = .ok keys → ∀ k ∈ keys, k.kind ≠ .primary
  | [], _, h => by
    cases h
    simp
  | r :: rest, _, h => by
    obtain ⟨row, hrow, h⟩ := bind_eq_ok_iff.mp h
    obtain ⟨rows, hrows, h⟩ := bind_eq_ok_iff.mp h
    cases h
    rw [List.forall_mem_append]
    refine ⟨fun k hk => ?_, kind_of_readKeyRows hrows⟩
    rw [Option.mem_toList.mp hk] at hrow
    exact kind_of_readKeyRow hrow

/-- **The indexes of a described collection** are the primary one and those of the groups. -/
theorem describe_groups {c : CollectionRef} {columnRows indexRows tableRows : List Row}
    {live : LiveCollection} (h : describe c columnRows indexRows tableRows = .ok live) :
    live.collection = c ∧ ∃ groups, readGroups c indexRows = .ok groups ∧
      live.indexes.filter (fun i => !i.isPrimary) = groups.filterMap (KeyGroup.index? c) := by
  unfold describe at h
  split at h
  · cases h
  · obtain ⟨definition, -, h⟩ := bind_eq_ok_iff.mp h
    obtain ⟨listed, -, h⟩ := bind_eq_ok_iff.mp h
    obtain ⟨keys, hkeys, h⟩ := bind_eq_ok_iff.mp h
    cases h
    have hkinds := kind_of_readKeyRows hkeys
    refine ⟨rfl, keyGroups keys, map_eq_ok_iff.mpr ⟨keys, hkeys, rfl⟩, ?_⟩
    have hprimary : (primaryIndex? (keyColumns listed)).toList.filter (fun i => !i.isPrimary) =
        [] := by
      unfold primaryIndex?
      split <;> rfl
    have hgroups : ∀ i ∈ (keyGroups keys).filterMap (KeyGroup.index? c),
        (!i.isPrimary) = true := by
      intro i hi
      obtain ⟨g, hg, hi⟩ := List.mem_filterMap.mp hi
      obtain ⟨k, hk, -, hkind⟩ := exists_row hg
      obtain ⟨-, rfl⟩ := KeyGroup.index?_eq_some_iff.mp hi
      have hkind : g.kind ≠ .primary := hkind ▸ hkinds k hk
      simpa [Index.isPrimary] using hkind
    show ((primaryIndex? (keyColumns listed)).toList ++ groupKeys c none keys).filter _ = _
    rw [List.filter_append, hprimary, List.nil_append, groupKeys_eq c hkinds,
      List.filter_eq_self.mpr hgroups]

end SchemaMigration.Catalog
