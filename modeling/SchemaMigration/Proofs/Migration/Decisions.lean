import Mathlib.Data.List.Forall2
import SchemaMigration.Migration.Batch
import SchemaMigration.Proofs.Diff.Changes
import SchemaMigration.Proofs.Migration.Action

/-!
# What is decided, and the steps that it makes up

A chooser can influence little: where an operation adds a column it names the source or leaves the
column empty, and everything else it can only stop.

* `Admits schema change d`: the decision `d` is one that the change leads to.
* `decideAll_ok`: decisions correspond to the operations one by one.
* `foldl_rebuild_eq`: building indexes again drops and adds those that are not there yet, each once;
  `foldl_rebuild`: so it is with those that are not added anyway.
* `queriesOf_eq_ok_iff`: decisions about one collection make up a creation and an alteration.
* `plannedIndexes_eq`: which indexes the batch of a diff drops and adds.
* **`batch_diff_ok`**: what is batched for the diff of a live collection.
-/

namespace SchemaMigration

/-- The decisions that a change leads to. Only the source of an added column is open; it is one of
the candidates. -/
inductive Admits (schema : Description) : Change → Decision → Prop
  /-- The collection is created as it is declared. -/
  | create {q : CreateCollection} (h : schema.toCreate = .ok q) :
      Admits schema .addCollection (.create q)
  /-- The column is added, empty or from a candidate. -/
  | addColumn (c : ColumnDescription) (candidates : List String) (source : Option String)
      (h : ∀ name, source = some name → name ∈ candidates) :
      Admits schema (.addColumn c candidates) (.addColumn c.column source)
  /-- The column is dropped. -/
  | dropColumn (c : ColumnDescription) : Admits schema (.dropColumn c) (.dropColumn c.handle)
  /-- The column takes its declaration, and the indexes over it are built again. -/
  | alterColumn (declared live : ColumnDescription) :
      Admits schema (.alterColumn declared live)
        (.alterColumn live.handle declared.column (schema.indexesOver declared.handle))
  /-- The index is added. -/
  | addIndex (i : IndexDescription) : Admits schema (.addIndex i) (.addIndex i.index)
  /-- The index is dropped. -/
  | dropIndex (i : IndexDescription) : Admits schema (.dropIndex i) (.dropIndex i.handle)

/-! ## Deciding -/

namespace Migrator

open SchemaMigration.Action

variable {σ κ : Type} {m : Migrator σ κ} {s t : Situation σ κ}

/-- An answer that is accepted is on offer. -/
theorem offers_of_ask {c : CollectionRef} {prompt key : String} {choices : List Choice}
    (h : (m.ask c prompt choices).outcome s = (.ok key, t)) : offers choices key = true := by
  obtain ⟨answer, u, -, h⟩ := outcome_bind_eq_ok_iff.mp h
  cases answer with
  | none => cases h
  | some key' =>
    by_cases hkey : offers choices key' = true
    · simp only [if_pos hkey] at h
      cases h
      exact hkey
    · simp only [if_neg hkey] at h
      cases h

/-- The keys on offer for a new column: none of the candidates, or one of them. -/
theorem mem_of_offers_copyChoices {candidates : List String} {key : String}
    (h : offers (copyChoices candidates) key = true) : key = leaveEmptyKey ∨ key ∈ candidates := by
  simp only [offers, copyChoices, List.any_cons, List.any_map, Bool.or_eq_true, beq_iff_eq,
    List.any_eq_true, Function.comp_apply] at h
  rcases h with h | ⟨c, hc, rfl⟩
  · exact Or.inl h.symm
  · exact Or.inr hc

/-- The source of a new column is a candidate. -/
theorem source_of_consult {schema : Description} {c : ColumnDescription} {candidates : List String}
    {answer : Option String}
    (h : (m.consult ⟨schema, .addColumn c candidates⟩).outcome s = (.ok answer, t)) :
    ∀ name, (answer.filter fun k => k != leaveEmptyKey) = some name → name ∈ candidates := by
  intro name hname
  obtain ⟨rfl, hempty⟩ := Option.filter_eq_some_iff.mp hname
  unfold consult DiffOperation.prompt? at h
  by_cases hc : candidates.isEmpty = true
  · simp only [if_pos hc] at h
    cases h
  · simp only [if_neg hc] at h
    obtain ⟨key, u, hask, h⟩ := outcome_bind_eq_ok_iff.mp h
    cases h
    rcases mem_of_offers_copyChoices (offers_of_ask hask) with rfl | hmem
    · simp at hempty
    · exact hmem

/-- A decision is one that the change leads to. -/
theorem decide_ok {op : DiffOperation} {d : Decision}
    (h : (m.decide op).outcome s = (.ok d, t)) : Admits op.schema op.change d := by
  obtain ⟨answer, u, hconsult, h⟩ := outcome_bind_eq_ok_iff.mp h
  cases hd : settle op answer with
  | error e =>
    rw [hd] at h
    cases h
  | ok d' =>
    rw [hd] at h
    cases h
    obtain ⟨schema, change⟩ := op
    cases change with
    | addCollection =>
      obtain ⟨q, hq, rfl⟩ := map_eq_ok_iff.mp (mapError_eq_ok_iff.mp hd)
      exact .create hq
    | addColumn c candidates =>
      cases hd
      exact .addColumn c candidates _ (source_of_consult hconsult)
    | dropColumn c =>
      by_cases ha : answer = some abortKey
      · simp only [settle, if_pos ha] at hd
        cases hd
      · simp only [settle, if_neg ha] at hd
        cases hd
        exact .dropColumn c
    | alterColumn declared live =>
      cases hd
      exact .alterColumn declared live
    | addIndex i =>
      cases hd
      exact .addIndex i
    | dropIndex i =>
      cases hd
      exact .dropIndex i

/-- **Decisions correspond to the operations one by one**, each under the operation's collection. -/
theorem decideAll_ok : ∀ {ops : List DiffOperation} {ds : List (CollectionRef × Decision)}
    {s t : Situation σ κ}, (m.decideAll ops).outcome s = (.ok ds, t) →
      List.Forall₂ (fun op d => d.1 = op.collection ∧ Admits op.schema op.change d.2) ops ds
  | [], _, _, _, h => by
    cases h
    exact .nil
  | op :: r, _, _, _, h => by
    obtain ⟨d, u, hd, h⟩ := outcome_bind_eq_ok_iff.mp h
    obtain ⟨rest, v, hr, h⟩ := outcome_bind_eq_ok_iff.mp h
    cases h
    exact .cons ⟨rfl, decide_ok hd⟩ (decideAll_ok hr)

end Migrator

/-! ## Decisions of one kind -/

section Kinds

variable {schema : Description} {changes : List Change} {ds : List Decision}

/-- What is picked from the decisions is made of what is picked from the changes. -/
theorem filterMap_of_admits {β γ : Type} {f : Change → Option β} {g : Decision → Option γ}
    {make : β → γ} (hfg : ∀ change d, Admits schema change d → g d = (f change).map make)
    (h : List.Forall₂ (Admits schema) changes ds) :
    ds.filterMap g = (changes.filterMap f).map make := by
  induction h with
  | nil => rfl
  | @cons change d _ _ hd _ ih =>
    rw [List.filterMap_cons, List.filterMap_cons, hfg _ _ hd, ih]
    cases f change <;> rfl

theorem creations_of_admits (h : List.Forall₂ (Admits schema) changes ds)
    (hne : ∀ change ∈ changes, change ≠ .addCollection) :
    ds.filterMap Decision.creation? = [] := by
  induction h with
  | nil => rfl
  | cons hd _ ih =>
    have hnone : ∀ {change d}, Admits schema change d → change ≠ .addCollection →
        d.creation? = none := fun hd hc => by
      cases hd with
      | create => exact absurd rfl hc
      | _ => rfl
    rw [List.filterMap_cons_none (hnone hd (hne _ List.mem_cons_self))]
    exact ih fun change hc => hne change (List.mem_cons_of_mem _ hc)

theorem droppedIndexes_of_admits (h : List.Forall₂ (Admits schema) changes ds) :
    ds.filterMap Decision.dropIndex? =
      (changes.filterMap Change.droppedIndex?).map IndexDescription.handle :=
  filterMap_of_admits (fun _ _ hd => by cases hd <;> rfl) h

theorem addedIndexes_of_admits (h : List.Forall₂ (Admits schema) changes ds) :
    ds.filterMap Decision.addIndex? =
      (changes.filterMap Change.addedIndex?).map IndexDescription.index :=
  filterMap_of_admits (fun _ _ hd => by cases hd <;> rfl) h

theorem droppedColumns_of_admits (h : List.Forall₂ (Admits schema) changes ds) :
    ds.filterMap Decision.dropColumn? =
      (changes.filterMap Change.droppedColumn?).map fun c => .dropColumn c.handle :=
  filterMap_of_admits (fun _ _ hd => by cases hd <;> rfl) h

theorem alteredColumns_of_admits (h : List.Forall₂ (Admits schema) changes ds) :
    ds.filterMap Decision.alterColumn? =
      (changes.filterMap Change.alteredColumn?).map fun p => .alterColumn p.2.handle p.1.column :=
  filterMap_of_admits (fun _ _ hd => by cases hd <;> rfl) h

/-- The step adds the column, empty or from a candidate. -/
def AlterStep.Adds (c : ColumnDescription × List String) (step : AlterStep) : Prop :=
  ∃ source, step = .addColumn c.1.column source ∧ ∀ name, source = some name → name ∈ c.2

theorem addedColumns_of_admits (h : List.Forall₂ (Admits schema) changes ds) :
    List.Forall₂ AlterStep.Adds (changes.filterMap Change.addedColumn?)
      (ds.filterMap Decision.addColumn?) := by
  refine List.rel_filterMap (fun change d hd => ?_) h
  cases hd with
  | addColumn c candidates source hsource => exact .some ⟨source, rfl, hsource⟩
  | _ => exact .none

theorem rebuilt_of_admits (h : List.Forall₂ (Admits schema) changes ds) :
    ds.flatMap Decision.rebuilt =
      (changes.filterMap Change.alteredColumn?).flatMap fun p =>
        schema.indexesOver p.1.handle := by
  induction h with
  | nil => rfl
  | cons hd _ ih =>
    rw [List.flatMap_cons, ih]
    cases hd <;> simp [Decision.rebuilt, Change.alteredColumn?, List.filterMap_cons]

end Kinds

/-! ## Building indexes again -/

theorem IndexPlan.rebuild_of_mem {p : IndexPlan} {i : Index} (h : i.name ∈ p.adds.map Index.name) :
    p.rebuild i = p := by
  obtain ⟨j, hj, e⟩ := List.mem_map.mp h
  exact if_pos (List.any_eq_true.mpr ⟨j, hj, by simpa using e⟩)

theorem IndexPlan.rebuild_of_not_mem {p : IndexPlan} {i : Index}
    (h : i.name ∉ p.adds.map Index.name) :
    p.rebuild i =
      ⟨if i.name ∈ p.drops then p.drops else p.drops ++ [i.name], p.adds ++ [i]⟩ := by
  have hadd : ¬ (p.adds.any fun j => j.name == i.name) = true := fun hany => by
    obtain ⟨j, hj, e⟩ := List.any_eq_true.mp hany
    exact h (List.mem_map.mpr ⟨j, hj, by simpa using e⟩)
  unfold IndexPlan.rebuild
  rw [if_neg hadd]
  simp only [List.contains_eq_mem, decide_eq_true_eq]

/-- The names that are not among others. -/
def namesBeyond (names others : List String) : List String :=
  names.filter fun name => name ∉ others

/-- Building indexes again drops and adds those that are not added yet, each once. Of their names
those are dropped that are not dropped anyway. -/
theorem foldl_rebuild_eq : ∀ (is : List Index) (p : IndexPlan),
    ∃ again, is.foldl IndexPlan.rebuild p =
        ⟨p.drops ++ namesBeyond (again.map Index.name) p.drops, p.adds ++ again⟩ ∧
      (again.map Index.name).Nodup ∧ (∀ i ∈ again, i ∈ is ∧ i.name ∉ p.adds.map Index.name) ∧
      ∀ i ∈ is, i.name ∈ p.adds.map Index.name ∨ i.name ∈ again.map Index.name
  | [], p => ⟨[], by simp [namesBeyond], List.nodup_nil, by simp, by simp⟩
  | i :: is, p => by
    by_cases hi : i.name ∈ p.adds.map Index.name
    · -- the index is added anyway
      obtain ⟨again, heq, hnodup, hmem, hall⟩ := foldl_rebuild_eq is p
      refine ⟨again, ?_, hnodup, fun j hj => ?_, fun j hj => ?_⟩
      · rw [List.foldl_cons, IndexPlan.rebuild_of_mem hi, heq]
      · exact ⟨List.mem_cons_of_mem i (hmem j hj).1, (hmem j hj).2⟩
      · rcases List.mem_cons.mp hj with rfl | hj
        · exact Or.inl hi
        · exact hall j hj
    · -- the index is dropped and added, and from now on it counts as added
      obtain ⟨again, heq, hnodup, hmem, hall⟩ := foldl_rebuild_eq is (p.rebuild i)
      rw [IndexPlan.rebuild_of_not_mem hi] at heq hmem hall
      simp only [List.map_append, List.mem_append, List.map_singleton, List.mem_singleton,
        not_or] at hmem hall
      have hother : ∀ name ∈ again.map Index.name, name ≠ i.name := by
        rintro name hname rfl
        obtain ⟨j, hj, e⟩ := List.mem_map.mp hname
        exact (hmem j hj).2.2 e
      refine ⟨i :: again, ?_, ?_, fun j hj => ?_, fun j hj => ?_⟩
      · rw [List.foldl_cons, IndexPlan.rebuild_of_not_mem hi, heq, List.append_assoc]
        refine congrArg (IndexPlan.mk · _) ?_
        by_cases hdrop : i.name ∈ p.drops
        · rw [if_pos hdrop, List.map_cons, namesBeyond, namesBeyond,
            List.filter_cons_of_neg (by simpa using hdrop)]
        · have hnames : namesBeyond (again.map Index.name) (p.drops ++ [i.name]) =
              namesBeyond (again.map Index.name) p.drops :=
            List.filter_congr fun name hname => by simp [hother name hname]
          rw [if_neg hdrop, hnames, List.map_cons, namesBeyond, namesBeyond,
            List.filter_cons_of_pos (by simpa using hdrop), List.append_assoc]
          rfl
      · rw [List.map_cons, List.nodup_cons]
        exact ⟨fun hm => hother _ hm rfl, hnodup⟩
      · rcases List.mem_cons.mp hj with rfl | hj
        · exact ⟨List.mem_cons_self, hi⟩
        · exact ⟨List.mem_cons_of_mem i (hmem j hj).1, (hmem j hj).2.1⟩
      · rw [List.map_cons, List.mem_cons]
        rcases List.mem_cons.mp hj with rfl | hj
        · exact Or.inr (Or.inl rfl)
        · rcases hall j hj with (hj | hj) | hj
          · exact Or.inl hj
          · exact Or.inr (Or.inl hj)
          · exact Or.inr (Or.inr hj)

/-- Building indexes again drops and adds those that are not added yet, each once, as long as what
is dropped of them is added as well. -/
theorem foldl_rebuild (is : List Index) (p : IndexPlan)
    (h : ∀ i ∈ is, i.name ∈ p.drops → i.name ∈ p.adds.map Index.name) :
    ∃ again, is.foldl IndexPlan.rebuild p = ⟨p.drops ++ again.map Index.name, p.adds ++ again⟩ ∧
      (again.map Index.name).Nodup ∧ (∀ i ∈ again, i ∈ is ∧ i.name ∉ p.adds.map Index.name) ∧
      ∀ i ∈ is, i.name ∈ p.adds.map Index.name ∨ i.name ∈ again.map Index.name := by
  obtain ⟨again, heq, hnodup, hmem, hall⟩ := foldl_rebuild_eq is p
  refine ⟨again, ?_, hnodup, hmem, hall⟩
  have hnames : namesBeyond (again.map Index.name) p.drops = again.map Index.name := by
    refine List.filter_eq_self.mpr fun name hname => decide_eq_true fun hdrop => ?_
    obtain ⟨i, hi, rfl⟩ := List.mem_map.mp hname
    exact (hmem i hi).2 (h i (hmem i hi).1 hdrop)
  rw [heq, hnames]

/-! ## Grouping -/

/-- The alteration with these steps, unless there are none. -/
def alteration (c : CollectionRef) (steps : List AlterStep) : List Query :=
  if steps.isEmpty then [] else [.alterCollection ⟨c, steps⟩]

theorem stepAll_eq_ok_iff : ∀ (steps : List AlterStep) {q q' : AlterCollection},
    q.stepAll steps = .ok q' ↔
      (∀ step ∈ steps, step.check = .ok ()) ∧ ⟨q.collection, q.steps ++ steps⟩ = q'
  | [], q, q' => by simp [AlterCollection.stepAll]
  | step :: r, q, q' => by
    simp only [AlterCollection.stepAll, AlterCollection.step, bind_eq_ok_iff, stepAll_eq_ok_iff r,
      List.forall_mem_cons]
    constructor
    · rintro ⟨_, ⟨⟨⟩, hstep, h⟩, hr, rfl⟩
      cases h
      exact ⟨⟨hstep, hr⟩, by simp⟩
    · rintro ⟨⟨hstep, hr⟩, rfl⟩
      exact ⟨_, ⟨(), hstep, rfl⟩, hr, by simp⟩

/-- Decisions about one collection make up a creation and an alteration, where there is anything to
create or to alter, once every step of the alteration is well formed. -/
theorem queriesOf_eq_ok_iff {c : CollectionRef} {ds : List Decision} {queries : List Query} :
    queriesOf c ds = .ok queries ↔
      (∀ step ∈ alterSteps ds, step.check = .ok ()) ∧
        ((ds.filterMap Decision.creation?).getLast?).toList.map .createCollection ++
          alteration c (alterSteps ds) = queries := by
  simp only [queriesOf, bind_eq_ok_iff, stepAll_eq_ok_iff]
  constructor
  · rintro ⟨_, ⟨hsteps, rfl⟩, h⟩
    exact ⟨hsteps, Except.ok.inj h⟩
  · rintro ⟨hsteps, rfl⟩
    exact ⟨_, ⟨hsteps, rfl⟩, rfl⟩

section OneCollection

variable {c : CollectionRef} {ds : List (CollectionRef × Decision)}

theorem decisionsOn_of_forall (h : ∀ d ∈ ds, d.1 = c) : decisionsOn c ds = ds.map Prod.snd := by
  unfold decisionsOn
  rw [List.filter_eq_self.mpr fun d hd => decide_eq_true (h d hd)]

/-- Decisions that are all about one collection are its group. -/
theorem groupQueries_of_forall {queries : List Query} (h : ∀ d ∈ ds, d.1 = c)
    (hq : groupQueries ds (collectionsOf ds) = .ok queries) :
    queriesOf c (ds.map Prod.snd) = .ok queries := by
  cases ds with
  | nil =>
    cases hq
    rfl
  | cons d r =>
    have hcs : collectionsOf (d :: r) = [c] := by
      unfold collectionsOf
      rw [List.map_cons, List.eraseDups_cons, h d List.mem_cons_self,
        List.filter_eq_nil_iff.mpr fun c' hc' => ?_]
      · rfl
      · obtain ⟨d', hd', rfl⟩ := List.mem_map.mp hc'
        simp [h d' (List.mem_cons_of_mem d hd')]
    rw [hcs] at hq
    obtain ⟨first, hfirst, hq⟩ := bind_eq_ok_iff.mp hq
    cases hq
    rw [decisionsOn_of_forall h] at hfirst
    rw [hfirst, List.append_nil]

end OneCollection

/-! ## The batch of a diff -/

namespace Description

variable {declared live : Description} {compare : ColumnType → ColumnType → Compatibility}

/-- The declared indexes over retyped columns. -/
def rebuilt (declared live : Description) (compare : ColumnType → ColumnType → Compatibility) :
    List Index :=
  (declared.retyped live compare).flatMap fun p => declared.indexesOver p.1.handle

/-- What a batch for the diff drops and adds of indexes. -/
def plannedIndexes (declared live : Description)
    (compare : ColumnType → ColumnType → Compatibility) : IndexPlan :=
  (declared.rebuilt live compare).foldl IndexPlan.rebuild
    ⟨(live.indexesBeyond declared).map IndexDescription.handle,
      (declared.indexesBeyond live).map IndexDescription.index⟩

theorem mem_rebuilt {i : Index} :
    i ∈ declared.rebuilt live compare ↔
      (∃ j ∈ declared.indexes, j.index = i) ∧ i.isPrimary = false ∧
        ∃ p ∈ declared.retyped live compare, i.covers p.1.handle = true := by
  simp only [rebuilt, indexesOver, List.mem_flatMap, List.mem_filter, List.mem_map,
    Bool.not_eq_true']
  constructor
  · rintro ⟨p, hp, ⟨hi, hprimary⟩, hcovers⟩
    exact ⟨hi, hprimary, p, hp, hcovers⟩
  · rintro ⟨hi, hprimary, p, hp, hcovers⟩
    exact ⟨p, hp, ⟨hi, hprimary⟩, hcovers⟩

/-- Declared indexes are named by their handles. -/
theorem names_indexesBeyond (live : Description) (hd : declared.WellFormed) :
    ((declared.indexesBeyond live).map IndexDescription.index).map Index.name =
      (declared.indexesBeyond live).map IndexDescription.handle := by
  rw [List.map_map]
  exact List.map_congr_left fun j hj => hd.index_name j (Keyed.mem_beyond.mp hj).1

theorem name_of_mem_rebuilt (hd : declared.WellFormed) {i : Index}
    (h : i ∈ declared.rebuilt live compare) :
    i.name ∈ declared.indexes.map IndexDescription.handle := by
  obtain ⟨⟨j, hj, rfl⟩, -⟩ := mem_rebuilt.mp h
  rw [hd.index_name j hj]
  exact List.mem_map_of_mem hj

/-- The indexes are the declared ones over retyped columns that the live collection has too, by
their names, each once. -/
structure BuiltAgain (declared live : Description)
    (compare : ColumnType → ColumnType → Compatibility) (again : List Index) : Prop where
  /-- The names are distinct. -/
  nodup : (again.map Index.name).Nodup
  /-- Every one of them is declared. -/
  mem_rebuilt : ∀ i ∈ again, i ∈ declared.rebuilt live compare
  /-- Every one of them is live. -/
  mem_live : ∀ i ∈ again, i.name ∈ live.indexes.map IndexDescription.handle
  /-- None is missing. -/
  complete : ∀ i ∈ declared.rebuilt live compare,
    i.name ∈ live.indexes.map IndexDescription.handle → i.name ∈ again.map Index.name

/-- **Indexes that are dropped and added**: those that only one side has, and those that are built
again. -/
theorem plannedIndexes_eq (live : Description)
    (compare : ColumnType → ColumnType → Compatibility) (hd : declared.WellFormed) :
    ∃ again, declared.BuiltAgain live compare again ∧
      declared.plannedIndexes live compare =
        ⟨(live.indexesBeyond declared).map IndexDescription.handle ++ again.map Index.name,
          (declared.indexesBeyond live).map IndexDescription.index ++ again⟩ := by
  have hdrops : ∀ i ∈ declared.rebuilt live compare,
      i.name ∈ (live.indexesBeyond declared).map IndexDescription.handle →
        i.name ∈ ((declared.indexesBeyond live).map IndexDescription.index).map Index.name :=
    fun i hi hdrop => absurd (name_of_mem_rebuilt hd hi) (Keyed.mem_map_beyond.mp hdrop).2
  obtain ⟨again, heq, hnodup, hmem, hall⟩ := foldl_rebuild _ ⟨_, _⟩ hdrops
  rw [names_indexesBeyond live hd] at hmem hall
  refine ⟨again, ⟨hnodup, fun i hi => (hmem i hi).1, fun i hi => ?_, fun i hi hlive => ?_⟩, heq⟩
  · by_contra hlive
    exact (hmem i hi).2 (Keyed.mem_map_beyond.mpr
      ⟨name_of_mem_rebuilt hd (hmem i hi).1, hlive⟩)
  · exact (hall i hi).resolve_left fun hm => (Keyed.mem_map_beyond.mp hm).2 hlive

theorem BuiltAgain.mem_both {again : List Index} (h : declared.BuiltAgain live compare again)
    (hd : declared.WellFormed) : ∀ name ∈ again.map Index.name,
      name ∈ live.indexes.map IndexDescription.handle ∧
        name ∈ declared.indexes.map IndexDescription.handle := by
  intro name hn
  obtain ⟨i, hi, rfl⟩ := List.mem_map.mp hn
  exact ⟨h.mem_live i hi, name_of_mem_rebuilt hd (h.mem_rebuilt i hi)⟩

/-- The steps of an alteration that brings the live collection in line, with the given steps for the
added columns. -/
def steps (declared live : Description) (compare : ColumnType → ColumnType → Compatibility)
    (added : List AlterStep) : List AlterStep :=
  (declared.plannedIndexes live compare).drops.map .dropIndex ++ added ++
    (declared.retyped live compare).map (fun p => .alterColumn p.2.handle p.1.column) ++
    (live.columnsBeyond declared).map (fun c => .dropColumn c.handle) ++
    (declared.plannedIndexes live compare).adds.map .addIndex

/-- The steps add the missing columns in their order, each one empty or from a live column. -/
def AddsMissing (declared live : Description) (added : List AlterStep) : Prop :=
  List.Forall₂ (fun c => AlterStep.Adds (c, copyCandidates c live)) (declared.columnsBeyond live)
    added

/-- Decisions about the changes of a diff make up these steps. -/
theorem alterSteps_of_admits {ds : List Decision}
    (h : List.Forall₂ (Admits declared) (declared.changes (some live) compare) ds) :
    ∃ added, declared.AddsMissing live added ∧
      alterSteps ds = declared.steps live compare added := by
  refine ⟨ds.filterMap Decision.addColumn?, ?_, ?_⟩
  · have hadded := addedColumns_of_admits h
    rwa [added_changes, List.forall₂_map_left_iff] at hadded
  · have hplan : indexPlan ds = declared.plannedIndexes live compare := by
      unfold indexPlan plannedIndexes rebuilt
      rw [rebuilt_of_admits h, droppedIndexes_of_admits h, addedIndexes_of_admits h,
        altered_changes, droppedIndex_changes, addedIndex_changes]
    unfold alterSteps steps
    rw [hplan, alteredColumns_of_admits h, droppedColumns_of_admits h, altered_changes,
      dropped_changes]

/-- **What is batched for a diff**, whoever decides: one alteration of the declared collection, in
which only the sources of added columns are open; or nothing, if it has no step. -/
theorem batch_diff_ok {σ κ : Type} {m : Migrator σ κ} {s t : Situation σ κ} {queries : List Query}
    (h : (m.batch (declared.diff (some live) compare)).outcome s = (.ok queries, t)) :
    ∃ added, declared.AddsMissing live added ∧
      queries = alteration declared.collection (declared.steps live compare added) := by
  obtain ⟨decisions, u, hds, h⟩ := Action.outcome_bind_eq_ok_iff.mp h
  have hq : groupQueries decisions (collectionsOf decisions) = .ok queries :=
    mapError_eq_ok_iff.mp (Action.outcome_lift_eq_ok_iff.mp h).1
  have hall := Migrator.decideAll_ok hds
  rw [diff, List.forall₂_map_left_iff] at hall
  have hcollection : ∀ d ∈ decisions, d.1 = declared.collection :=
    ((List.forall₂_and_left _ _).mp hall.flip).1
  have hadmits : List.Forall₂ (Admits declared) (declared.changes (some live) compare)
      (decisions.map Prod.snd) := List.forall₂_map_right_iff.mpr (hall.imp fun _ _ hd => hd.2)
  obtain ⟨added, hadded, hsteps⟩ := alterSteps_of_admits hadmits
  have hcreations : (decisions.map Prod.snd).filterMap Decision.creation? = [] := by
    refine creations_of_admits hadmits fun change hc e => ?_
    rw [changes_some, e] at hc
    simp at hc
  obtain ⟨-, rfl⟩ := queriesOf_eq_ok_iff.mp (groupQueries_of_forall hcollection hq)
  refine ⟨added, hadded, ?_⟩
  rw [hcreations, hsteps]
  rfl

end Description

/-! ## An example -/

namespace Posts

/-- What the older posts need: the index over the views is built again around their new type. -/
def steps : List AlterStep :=
  [.dropIndex "stale", .dropIndex "ranking", .addColumn (.plain "title__fr" .text) none,
    .alterColumn "views" (.plain "views" .int32), .dropColumn "legacy",
    .addIndex ⟨"titles__fr", .unique, Index.ascending ["title__fr"]⟩,
    .addIndex ⟨"ranking", .plain, Index.ascending ["views", "id"]⟩]

theorem batch_found :
    (migrator.batch (declared.diff (some found) ColumnType.compareTypes)).outcome ⟨(), (), []⟩ =
      (.ok [.alterCollection ⟨collection, steps⟩], ⟨(), (), []⟩) := by
  rfl

end Posts

end SchemaMigration
