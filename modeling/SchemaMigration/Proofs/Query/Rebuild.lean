import Mathlib
import SchemaMigration.Description
import SchemaMigration.Proofs.Description.Expansion
import SchemaMigration.Proofs.Keyed
import SchemaMigration.Proofs.Statement.Structural

/-!
# Building a query again

A query that was read from a text was not built, and none of the builders' checks were made on it.
Compiling it checks every name, column and index by itself, and the condition as a whole; what the
builders check between the parts it leaves alone.

About `compile_create` beside the `column` and `index` of `CreateCollection`.

* `Query.rebuild`: the query built again from its parts.
* `CreateCollection.rebuild_eq_ok_iff`, `Assignments.replay_eq_ok_iff`: what the builders check.
* **`Query.rebuild_compile_iff`**: a query that compiles can be built iff it is consistent, that is,
  iff no column, no index and no assigned field is named twice and every index covers columns that
  are there.
-/

namespace SchemaMigration

/-! ## Creations -/

namespace CreateCollection

/-- The creation built again from its columns and then its indexes. -/
def rebuild (q : CreateCollection) : Except Misuse CreateCollection := do
  let built ← Description.addColumns (.of q.collection) q.columns
  Description.addIndexes built q.indexes

/-- No name occurs twice, and the indexes cover columns that are there. -/
structure Consistent (q : CreateCollection) : Prop where
  /-- The columns have distinct names. -/
  columns_nodup : (q.columns.map Column.name).Nodup
  /-- The indexes have distinct names. -/
  indexes_nodup : (q.indexes.map Index.name).Nodup
  /-- Every index covers columns of the collection. -/
  covered : ∀ i ∈ q.indexes, ∀ f ∈ i.fields, f ∈ q.columns.map Column.name

theorem hasColumn_iff {q : CreateCollection} {name : String} :
    q.hasColumn name = true ↔ name ∈ q.columns.map Column.name := by
  simp only [hasColumn, List.any_eq_true, beq_iff_eq, List.mem_map]

theorem column_eq_ok_iff {q q' : CreateCollection} {c : Column} :
    q.column c = .ok q' ↔ c.misuse? = none ∧ c.name ∉ q.columns.map Column.name ∧
      ⟨q.collection, q.columns ++ [c], q.indexes⟩ = q' := by
  rw [column, bind_eq_ok_iff, Unique.exists_iff, Column.check_eq_ok_iff, ← hasColumn_iff]
  refine and_congr_right fun _ => ?_
  by_cases h : q.hasColumn c.name = true
  · simp [h]
  · simp [h, pure, Except.pure]

theorem index_eq_ok_iff {q q' : CreateCollection} {i : Index} :
    q.index i = .ok q' ↔ i.misuse? = none ∧ i.name ∉ q.indexes.map Index.name ∧
      (∀ f ∈ i.fields, f ∈ q.columns.map Column.name) ∧
        ⟨q.collection, q.columns, q.indexes ++ [i]⟩ = q' := by
  have hfields : (i.fields.find? fun f => !q.hasColumn f) = none ↔
      ∀ f ∈ i.fields, f ∈ q.columns.map Column.name := by
    simp only [List.find?_eq_none, Bool.not_eq_true', Bool.not_eq_false, hasColumn_iff]
  have hname : (q.indexes.any fun j => j.name == i.name) = true ↔
      i.name ∈ q.indexes.map Index.name := by
    simp only [List.any_eq_true, beq_iff_eq, List.mem_map]
  rw [index, bind_eq_ok_iff, Unique.exists_iff, Index.check_eq_ok_iff, ← hname, ← hfields]
  refine and_congr_right fun _ => ?_
  by_cases h : (q.indexes.any fun j => j.name == i.name) = true
  · simp [h]
  · cases hfind : i.fields.find? fun f => !q.hasColumn f with
    | some missing => simp [h]
    | none => simp [h, pure, Except.pure]

/-- Columns can be added iff each is well formed and has a name that is free. -/
theorem addColumns_eq_ok_iff : ∀ {cs : List Column} {q q' : CreateCollection},
    Description.addColumns q cs = .ok q' ↔ (∀ c ∈ cs, c.misuse? = none) ∧
      Keyed.Fresh Column.name q.columns cs ∧ ⟨q.collection, q.columns ++ cs, q.indexes⟩ = q'
  | [], q, q' => by simp [Description.addColumns, Keyed.fresh_nil_right]
  | c :: cs, q, q' => by
    rw [Description.addColumns, bind_eq_ok_iff, List.forall_mem_cons, Keyed.fresh_cons]
    constructor
    · rintro ⟨q₁, hq₁, hrest⟩
      obtain ⟨hc, hfree, rfl⟩ := column_eq_ok_iff.mp hq₁
      obtain ⟨hcs, hfresh, rfl⟩ := addColumns_eq_ok_iff.mp hrest
      exact ⟨⟨hc, hcs⟩, ⟨hfree, hfresh⟩, by simp⟩
    · rintro ⟨⟨hc, hcs⟩, ⟨hfree, hfresh⟩, rfl⟩
      exact ⟨_, column_eq_ok_iff.mpr ⟨hc, hfree, rfl⟩,
        addColumns_eq_ok_iff.mpr ⟨hcs, hfresh, by simp⟩⟩

/-- Indexes can be added iff each is well formed, has a name that is free, and covers columns that
are there. -/
theorem addIndexes_eq_ok_iff : ∀ {is : List Index} {q q' : CreateCollection},
    Description.addIndexes q is = .ok q' ↔ (∀ i ∈ is, i.misuse? = none) ∧
      Keyed.Fresh Index.name q.indexes is ∧
        (∀ i ∈ is, ∀ f ∈ i.fields, f ∈ q.columns.map Column.name) ∧
          ⟨q.collection, q.columns, q.indexes ++ is⟩ = q'
  | [], q, q' => by simp [Description.addIndexes, Keyed.fresh_nil_right]
  | i :: is, q, q' => by
    rw [Description.addIndexes, bind_eq_ok_iff, List.forall_mem_cons, List.forall_mem_cons,
      Keyed.fresh_cons]
    constructor
    · rintro ⟨q₁, hq₁, hrest⟩
      obtain ⟨hi, hfree, hfields, rfl⟩ := index_eq_ok_iff.mp hq₁
      obtain ⟨his, hfresh, hcovered, rfl⟩ := addIndexes_eq_ok_iff.mp hrest
      exact ⟨⟨hi, his⟩, ⟨hfree, hfresh⟩, ⟨hfields, hcovered⟩, by simp⟩
    · rintro ⟨⟨hi, his⟩, ⟨hfree, hfresh⟩, ⟨hfields, hcovered⟩, rfl⟩
      exact ⟨_, index_eq_ok_iff.mpr ⟨hi, hfree, hfields, rfl⟩,
        addIndexes_eq_ok_iff.mpr ⟨his, hfresh, hcovered, by simp⟩⟩

/-- **What can be built**: well-formed columns and indexes that are consistent. -/
theorem rebuild_eq_ok_iff {q : CreateCollection} :
    q.rebuild = .ok q ↔ (∀ c ∈ q.columns, c.misuse? = none) ∧ (∀ i ∈ q.indexes, i.misuse? = none) ∧
      q.Consistent := by
  rw [rebuild, bind_eq_ok_iff]
  constructor
  · rintro ⟨built, hbuilt, h⟩
    obtain ⟨hcolumns, hnames, rfl⟩ := addColumns_eq_ok_iff.mp hbuilt
    obtain ⟨hindexes, hindexNames, hcovered, -⟩ := addIndexes_eq_ok_iff.mp h
    exact ⟨hcolumns, hindexes, Keyed.fresh_nil_left.mp hnames,
      Keyed.fresh_nil_left.mp hindexNames, hcovered⟩
  · rintro ⟨hcolumns, hindexes, hnames, hindexNames, hcovered⟩
    exact ⟨⟨q.collection, q.columns, []⟩,
      addColumns_eq_ok_iff.mpr ⟨hcolumns, Keyed.fresh_nil_left.mpr hnames, rfl⟩,
      addIndexes_eq_ok_iff.mpr ⟨hindexes, Keyed.fresh_nil_left.mpr hindexNames, hcovered, rfl⟩⟩

end CreateCollection

/-! ## Assignments -/

namespace Assignments

/-- Assignments made one after the other on top of others. -/
def replay (a l : Assignments) : Except Misuse Assignments :=
  l.foldlM (fun a entry => Assignments.set a entry.1 entry.2) a

/-- What assigns to its own assignments does so one after the other. -/
theorem replay_within {σ : Type} {set : σ → String → Operand → Except Misuse σ}
    {within : Assignments → σ}
    (hset : ∀ a field operand, set (within a) field operand =
      (Assignments.set a field operand).map within) (a l : Assignments) :
    l.foldlM (fun q entry => set q entry.1 entry.2) (within a) = (replay a l).map within := by
  unfold replay
  induction l generalizing a with
  | nil => rfl
  | cons entry rest ih =>
    rw [List.foldlM_cons, List.foldlM_cons, hset]
    cases Assignments.set a entry.1 entry.2 with
    | error m => rfl
    | ok a => exact ih a

theorem map_fst_put (field : String) (operand : Operand) (a : Assignments) :
    (put field operand a).map Prod.fst =
      if field ∈ a.map Prod.fst then a.map Prod.fst else a.map Prod.fst ++ [field] := by
  induction a with
  | nil => rfl
  | cons entry rest ih =>
    unfold put
    by_cases h : entry.1 = field
    · simp [h]
    · have hne : field ≠ entry.1 := Ne.symm h
      rw [if_neg h, List.map_cons, List.map_cons, ih]
      by_cases hrest : field ∈ rest.map Prod.fst
      · rw [if_pos hrest, if_pos (List.mem_cons_of_mem _ hrest)]
      · rw [if_neg hrest, if_neg (by rw [List.mem_cons, not_or]; exact ⟨hne, hrest⟩)]
        rfl

theorem put_of_not_mem {field : String} {operand : Operand} {a : Assignments}
    (h : field ∉ a.map Prod.fst) : put field operand a = a ++ [(field, operand)] := by
  induction a with
  | nil => rfl
  | cons entry rest ih =>
    rw [List.map_cons, List.mem_cons, not_or] at h
    rw [put, if_neg (Ne.symm h.1), ih h.2, List.cons_append]

/-- An assignment keeps the fields distinct. -/
theorem nodup_put {field : String} {operand : Operand} {a : Assignments}
    (h : (a.map Prod.fst).Nodup) : ((put field operand a).map Prod.fst).Nodup := by
  rw [map_fst_put]
  by_cases hmem : field ∈ a.map Prod.fst
  · rwa [if_pos hmem]
  · rw [if_neg hmem, ← List.concat_eq_append]
    exact h.concat hmem

theorem set_eq_ok_iff {a a' : Assignments} {field : String} {operand : Operand} :
    Assignments.set a field operand = .ok a' ↔
      Identifier.misuse? field = none ∧ put field operand a = a' := by
  rw [set, bind_eq_ok_iff, ← Identifier.check_eq_ok_iff]
  constructor
  · rintro ⟨⟨⟩, hcheck, h⟩
    exact ⟨hcheck, Except.ok.inj h⟩
  · rintro ⟨hcheck, rfl⟩
    exact ⟨(), hcheck, rfl⟩

/-- Assignments that were made have distinct fields. -/
theorem nodup_replay : ∀ {l a a' : Assignments}, (a.map Prod.fst).Nodup → replay a l = .ok a' →
    (a'.map Prod.fst).Nodup
  | [], _, _, h, hr => by
    cases hr
    exact h
  | entry :: rest, _, _, h, hr => by
    obtain ⟨a₁, hset, hr⟩ := bind_eq_ok_iff.mp hr
    obtain ⟨-, rfl⟩ := set_eq_ok_iff.mp hset
    exact nodup_replay (nodup_put h) hr

theorem replay_of_fresh : ∀ {l a : Assignments}, Keyed.Fresh Prod.fst a l →
    (∀ entry ∈ l, Identifier.misuse? entry.1 = none) → replay a l = .ok (a ++ l)
  | [], a, _, _ => congrArg Except.ok (List.append_nil a).symm
  | entry :: rest, a, h, hvalid => by
    rw [List.forall_mem_cons] at hvalid
    obtain ⟨hfree, hrest⟩ := Keyed.fresh_cons.mp h
    have hreplay := replay_of_fresh hrest hvalid.2
    rw [List.append_assoc, List.singleton_append] at hreplay
    exact bind_eq_ok_iff.mpr ⟨a ++ [entry],
      set_eq_ok_iff.mpr ⟨hvalid.1, put_of_not_mem hfree⟩, hreplay⟩

/-- **Assignments to well-formed fields can be made** iff no field is assigned twice. -/
theorem replay_eq_ok_iff {l : Assignments}
    (hvalid : ∀ entry ∈ l, Identifier.misuse? entry.1 = none) :
    replay [] l = .ok l ↔ (l.map Prod.fst).Nodup :=
  ⟨nodup_replay List.nodup_nil, fun h => replay_of_fresh (Keyed.fresh_nil_left.mpr h) hvalid⟩

end Assignments

/-- An insert assigns within its assignments. -/
theorem Insert.set_eq_map (q : Insert) (field : String) (operand : Operand) :
    q.set field operand =
      (Assignments.set q.values field operand).map (Insert.mk q.collection) := by
  unfold Insert.set
  cases Assignments.set q.values field operand <;> rfl

/-- An update assigns within its assignments. -/
theorem Update.set_eq_map (q : Update) (field : String) (operand : Operand) :
    q.set field operand = (Assignments.set q.values field operand).map fun a =>
      Update.mk q.collection a q.predicate := by
  unfold Update.set
  cases Assignments.set q.values field operand <;> rfl

/-- The insert built again from its assignments. -/
def Insert.rebuild (q : Insert) : Except Misuse Insert :=
  q.values.foldlM (fun q entry => q.set entry.1 entry.2) (.into q.collection)

theorem Insert.rebuild_eq_ok_iff {q : Insert}
    (hvalid : ∀ entry ∈ q.values, Identifier.misuse? entry.1 = none) :
    q.rebuild = .ok q ↔ (q.values.map Prod.fst).Nodup := by
  rw [← Assignments.replay_eq_ok_iff hvalid, rebuild, Insert.into,
    Assignments.replay_within fun a => (Insert.mk q.collection a).set_eq_map, map_eq_ok_iff]
  constructor
  · rintro ⟨values, hvalues, h⟩
    rw [hvalues, ← congrArg Insert.values h]
  · exact fun h => ⟨q.values, h, rfl⟩

/-- The update built again from its assignments and then its condition. -/
def Update.rebuild (q : Update) : Except Misuse Update := do
  let built ← q.values.foldlM (fun q entry => q.set entry.1 entry.2) (Update.of q.collection)
  match q.predicate with
  | some p => built.alsoMatching p
  | none => return built

theorem Update.rebuild_eq_ok_iff {q : Update}
    (hvalid : ∀ entry ∈ q.values, Identifier.misuse? entry.1 = none)
    (hpredicate : ∀ p ∈ q.predicate, p.check = .ok ()) :
    q.rebuild = .ok q ↔ (q.values.map Prod.fst).Nodup := by
  rw [← Assignments.replay_eq_ok_iff hvalid, rebuild, Update.of,
    Assignments.replay_within fun a => (Update.mk q.collection a none).set_eq_map, bind_eq_ok_iff]
  have hcondition : ∀ values, (match q.predicate with
      | some p => (Update.mk q.collection values none).alsoMatching p
      | none => return ⟨q.collection, values, none⟩) =
        .ok ⟨q.collection, values, q.predicate⟩ := by
    intro values
    cases hp : q.predicate with
    | none => rfl
    | some p => exact bind_eq_ok_iff.mpr ⟨(), hpredicate p hp, rfl⟩
  constructor
  · rintro ⟨built, hbuilt, h⟩
    obtain ⟨values, hvalues, rfl⟩ := map_eq_ok_iff.mp hbuilt
    rw [hcondition] at h
    rw [hvalues, ← congrArg Update.values (Except.ok.inj h)]
  · intro h
    exact ⟨_, map_eq_ok_iff.mpr ⟨q.values, h, rfl⟩, hcondition q.values⟩

/-! ## Compiled queries -/

section Compiled

variable {d : Dialect} {vars : Variables}

/-- The columns and indexes of a creation that compiles are well formed. -/
theorem CreateCollection.misuse?_of_ddl {q : CreateCollection} {ds : List Ddl}
    (h : q.ddl d = .ok ds) :
    (∀ c ∈ q.columns, c.misuse? = none) ∧ ∀ i ∈ q.indexes, i.misuse? = none := by
  obtain ⟨⟨⟩, hcolumns, h⟩ := bind_eq_ok_iff.mp h
  obtain ⟨⟨⟩, hindexes, -⟩ := bind_eq_ok_iff.mp h
  exact ⟨checkAll_ok hcolumns, checkAll_ok hindexes⟩

/-- The assigned fields of an insert that compiles are identifiers. -/
theorem Insert.misuse?_of_pieces {q : Insert} {ps : List Piece} (h : q.pieces vars = .ok ps) :
    ∀ entry ∈ q.values, Identifier.misuse? entry.1 = none := by
  unfold pieces at h
  split at h
  · rename_i hempty
    simp [List.isEmpty_iff.mp hempty]
  · obtain ⟨fields, hfields, -⟩ := bind_eq_ok_iff.mp h
    exact fun entry hentry => (fieldPieces_ok hfields).2 _ (List.mem_map_of_mem hentry)

/-- The assigned fields of an update that compiles are identifiers, and its condition is
accepted. -/
theorem Update.misuse?_of_pieces {q : Update} {ps : List Piece} (h : q.pieces vars = .ok ps) :
    (∀ entry ∈ q.values, Identifier.misuse? entry.1 = none) ∧
      ∀ p ∈ q.predicate, p.check = .ok () := by
  obtain ⟨-, assignments, condition, hassignments, hcondition, -⟩ := pieces_eq_ok_iff.mp h
  constructor
  · intro entry hentry
    obtain ⟨ps, hps⟩ := forall_mem_of_piecesOfAll hassignments entry hentry
    obtain ⟨v, -, hvalid, -⟩ := assignmentPieces_ok hps
    exact hvalid
  · intro p hp
    rw [Option.mem_def.mp hp] at hcondition
    obtain ⟨⟨⟩, hcheck, -⟩ := bind_eq_ok_iff.mp hcondition
    exact mapError_eq_ok_iff.mp hcheck

end Compiled

namespace Query

/-- A creation, an insert or an update built again from its parts. -/
def rebuild : Query → Except Misuse Query
  | .createCollection q => q.rebuild.map .createCollection
  | .insert q => q.rebuild.map .insert
  | .update q => q.rebuild.map .update
  | q => .ok q

/-- No part of a creation, an insert or an update is named twice, and indexes cover columns that are
there. -/
def Consistent : Query → Prop
  | .createCollection q => q.Consistent
  | .insert q => (q.values.map Prod.fst).Nodup
  | .update q => (q.values.map Prod.fst).Nodup
  | _ => True

/-- **A creation, an insert or an update that compiles can be built** iff no column, no index and no
assigned field is named twice, and every index covers columns that are there. -/
theorem rebuild_compile_iff {q : Query} {d : Dialect} {vars : Variables} {cq : CompiledQuery}
    (h : q.compile d vars = .ok cq) : q.rebuild = .ok q ↔ q.Consistent := by
  obtain ⟨ss, hss, -⟩ := bind_eq_ok_iff.mp h
  cases q with
  | createCollection q =>
    obtain ⟨ds, hds, -⟩ := map_eq_ok_iff.mp hss
    obtain ⟨hcolumns, hindexes⟩ := CreateCollection.misuse?_of_ddl hds
    rw [rebuild, map_eq_ok_iff_of_inj createCollection.inj, CreateCollection.rebuild_eq_ok_iff]
    exact ⟨fun h => h.2.2, fun h => ⟨hcolumns, hindexes, h⟩⟩
  | insert q =>
    obtain ⟨ps, hps, -⟩ := map_eq_ok_iff.mp hss
    rw [rebuild, map_eq_ok_iff_of_inj insert.inj]
    exact Insert.rebuild_eq_ok_iff (Insert.misuse?_of_pieces hps)
  | update q =>
    obtain ⟨ps, hps, -⟩ := map_eq_ok_iff.mp hss
    obtain ⟨hvalid, hpredicate⟩ := Update.misuse?_of_pieces hps
    rw [rebuild, map_eq_ok_iff_of_inj update.inj]
    exact Update.rebuild_eq_ok_iff hvalid hpredicate
  | _ => simp [rebuild, Consistent]

end Query

/-! ## An example -/

namespace Posts

/-- A creation of posts with a title in English. -/
def creation : Query :=
  .createCollection ⟨collection, [.plain "id" .int64, .plain "title__en" .text],
    [⟨primaryName, .primary, Index.ascending ["id"]⟩,
      ⟨"titles", .unique, Index.ascending ["title__en"]⟩]⟩

/-- A creation of posts that names a column twice, as it is stored. -/
def repeatedText : String :=
  "\x7b\"collection\":\x7b\"name\":\"post\"\x7d,\"indexes\":[]," ++
    "\"columns\":[\x7b\"name\":\"id\",\"type\":\"int64\"\x7d," ++
    "\x7b\"name\":\"id\",\"type\":\"int64\"\x7d]\x7d"

/-- A creation of posts that names a column twice. -/
def repeated : Query :=
  .createCollection ⟨collection, [.plain "id" .int64, .plain "id" .int64], []⟩

theorem parse_repeatedText :
    Json.parse repeatedText.toList =
      (.object [("collection", .object [("name", .text "post")]), ("indexes", .array []),
        ("columns", .array [.object [("name", .text "id"), ("type", .text "int64")],
          .object [("name", .text "id"), ("type", .text "int64")]])], []) := by
  cbv

end Posts

/-- A creation of posts that compiles can be built again. -/
theorem Query.rebuild_compile_of_posts :
    ∃ cq, Posts.creation.compile .sqlite [] = .ok cq ∧
      Posts.creation.rebuild = .ok Posts.creation := by
  have hcompile : ∃ cq, Posts.creation.compile .sqlite [] = .ok cq := ⟨_, rfl⟩
  obtain ⟨cq, hcq⟩ := hcompile
  exact ⟨cq, hcq, (Query.rebuild_compile_iff hcq).mpr ⟨by decide, by decide, by decide⟩⟩

/-- A creation that names a column twice is read from a text and compiles on both dialects, but no
builder makes it. -/
theorem Query.repeated_compiles :
    Query.ofText .createCollection Posts.repeatedText = .ok Posts.repeated ∧
      (∀ d, ∃ cq, Posts.repeated.compile d [] = .ok cq) ∧
        Posts.repeated.rebuild = .error (.duplicateColumn "id" "post") := by
  refine ⟨?_, fun d => ?_, rfl⟩
  · rw [Query.ofText, decodeText, Posts.parse_repeatedText]
    rfl
  · cases d <;> exact ⟨_, rfl⟩

end SchemaMigration
