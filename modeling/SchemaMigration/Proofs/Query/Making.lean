import SchemaMigration.Proofs.Query.Rebuild
import SchemaMigration.Proofs.Statement.Meaning

/-!
# Queries that are made step by step

A query is made by the builders' steps, every one of which has to succeed. What the steps check by
themselves holds of everything in the query in the end.

* `Select.Made`, `CreateCollection.Made` and so on, `Query.Made`: the queries that can be made.
* `Select.Made.wellFormed`, `Update.Made.wellFormed`: every name and condition is well formed, by
  induction on the steps.
* **`CreateCollection.made_iff_rebuild`**: a creation can be made iff it can be built again from its
  columns and then its indexes, whatever the order in which they were added.
-/

namespace SchemaMigration

/-! ## Queries on rows -/

/-- The condition on the rows, if there is one, is well formed. -/
def ConditionFits (p : Option Predicate) : Prop :=
  ∀ r ∈ p, r.misuse? = none

theorem ConditionFits.none : ConditionFits none :=
  fun r hr => absurd hr (Option.not_mem_none r)

theorem ConditionFits.combine {p : Option Predicate} {r : Predicate} (hp : ConditionFits p)
    (hr : r.check = .ok ()) : ConditionFits (some (Predicate.combine p r)) := by
  have hr := Predicate.check_eq_ok_iff.mp hr
  rintro s ⟨⟩
  cases p with
  | none => exact hr
  | some p => exact Connective.misuse?_build .and (hp p rfl) hr

/-- The selects that can be made. -/
inductive Select.Made : Select → Prop
  | empty : Made .empty
  | inCollection {q : Select} (c : CollectionRef) : q.Made → Made (q.inCollection c)
  | project {q q' : Select} {fields : List String} : q.Made → q.project fields = .ok q' → q'.Made
  | matching {q q' : Select} {p : Predicate} : q.Made → q.matching p = .ok q' → q'.Made
  | alsoMatching {q q' : Select} {p : Predicate} : q.Made → q.alsoMatching p = .ok q' → q'.Made
  | orderBy {q q' : Select} {field : String} {direction : Direction} :
    q.Made → q.orderBy field direction = .ok q' → q'.Made
  | window {q q' : Select} {offset : Int64} {limit : Option Int64} :
    q.Made → q.window offset limit = .ok q' → q'.Made

/-- Every name in a select and its condition are well formed. -/
structure Select.WellFormed (q : Select) : Prop where
  /-- The fields are identifiers. -/
  fields : ∀ f ∈ q.fields, Identifier.misuse? f = none
  /-- The condition is well formed. -/
  condition : ConditionFits q.predicate
  /-- The sorted fields are identifiers. -/
  sort : ∀ t ∈ q.sort, Identifier.misuse? t.field = none

/-- **A select that is made is well formed.** -/
theorem Select.Made.wellFormed {q : Select} (h : q.Made) : q.WellFormed := by
  induction h with
  | empty => exact ⟨by simp [Select.empty], by simp [ConditionFits, Select.empty],
      by simp [Select.empty]⟩
  | inCollection c _ ih => exact ⟨ih.fields, ih.condition, ih.sort⟩
  | project _ hq ih =>
    unfold Select.project at hq
    split at hq
    · cases hq
    · rename_i hnone
      cases hq
      exact ⟨List.findSome?_eq_none_iff.mp hnone, ih.condition, ih.sort⟩
  | matching _ hq ih =>
    obtain ⟨⟨⟩, -, hq⟩ := bind_eq_ok_iff.mp hq
    obtain ⟨⟨⟩, hp, hq⟩ := bind_eq_ok_iff.mp hq
    cases hq
    exact ⟨ih.fields, ConditionFits.none.combine hp, ih.sort⟩
  | alsoMatching _ hq ih =>
    obtain ⟨⟨⟩, -, hq⟩ := bind_eq_ok_iff.mp hq
    obtain ⟨⟨⟩, hp, hq⟩ := bind_eq_ok_iff.mp hq
    cases hq
    exact ⟨ih.fields, ih.condition.combine hp, ih.sort⟩
  | orderBy _ hq ih =>
    obtain ⟨⟨⟩, -, hq⟩ := bind_eq_ok_iff.mp hq
    obtain ⟨⟨⟩, hfield, hq⟩ := bind_eq_ok_iff.mp hq
    cases hq
    refine ⟨ih.fields, ih.condition, List.forall_mem_append.mpr ⟨ih.sort, ?_⟩⟩
    exact List.forall_mem_singleton.mpr ((Identifier.check_eq_ok_iff _).mp hfield)
  | window _ hq ih =>
    unfold Select.window at hq
    split at hq
    · cases hq
    · split at hq
      · split at hq
        · cases hq
        · cases hq
          exact ⟨ih.fields, ih.condition, ih.sort⟩
      · cases hq
        exact ⟨ih.fields, ih.condition, ih.sort⟩

/-- Every assigned field is an identifier. -/
def Assignments.Named (a : Assignments) : Prop :=
  ∀ entry ∈ a, Identifier.misuse? entry.1 = none

theorem Assignments.Named.set {a a' : Assignments} {field : String} {operand : Operand}
    (ha : a.Named) (h : Assignments.set a field operand = .ok a') : a'.Named := by
  obtain ⟨hfield, rfl⟩ := set_eq_ok_iff.mp h
  intro entry hentry
  have hname : entry.1 ∈ (put field operand a).map Prod.fst := List.mem_map_of_mem hentry
  rw [map_fst_put] at hname
  have hold : ∀ name ∈ a.map Prod.fst, Identifier.misuse? name = none := by
    rw [List.forall_mem_map]
    exact ha
  split at hname
  · exact hold _ hname
  · rcases List.mem_append.mp hname with hname | hname
    · exact hold _ hname
    · rw [List.mem_singleton.mp hname]
      exact hfield

/-- The inserts that can be made. -/
inductive Insert.Made : Insert → Prop
  | into (c : CollectionRef) : Made (.into c)
  | set {q q' : Insert} {field : String} {operand : Operand} :
    q.Made → q.set field operand = .ok q' → q'.Made

/-- **The fields of an insert that is made are identifiers.** -/
theorem Insert.Made.named {q : Insert} (h : q.Made) : q.values.Named := by
  induction h with
  | into c => exact List.forall_mem_nil _
  | set _ hq ih =>
    obtain ⟨values, hvalues, hq⟩ := bind_eq_ok_iff.mp hq
    cases hq
    exact ih.set hvalues

/-- The updates that can be made. -/
inductive Update.Made : Update → Prop
  | of (c : CollectionRef) : Made (.of c)
  | set {q q' : Update} {field : String} {operand : Operand} :
    q.Made → q.set field operand = .ok q' → q'.Made
  | alsoMatching {q q' : Update} {p : Predicate} : q.Made → q.alsoMatching p = .ok q' → q'.Made

/-- **The fields of an update that is made are identifiers, and its condition is well formed.** -/
theorem Update.Made.wellFormed {q : Update} (h : q.Made) :
    q.values.Named ∧ ConditionFits q.predicate := by
  induction h with
  | of c => exact ⟨List.forall_mem_nil _, ConditionFits.none⟩
  | set _ hq ih =>
    obtain ⟨values, hvalues, hq⟩ := bind_eq_ok_iff.mp hq
    cases hq
    exact ⟨ih.1.set hvalues, ih.2⟩
  | alsoMatching _ hq ih =>
    obtain ⟨⟨⟩, hp, hq⟩ := bind_eq_ok_iff.mp hq
    cases hq
    exact ⟨ih.1, ih.2.combine hp⟩

/-- The deletes that can be made. -/
inductive Delete.Made : Delete → Prop
  | of (c : CollectionRef) : Made (.of c)
  | alsoMatching {q q' : Delete} {p : Predicate} : q.Made → q.alsoMatching p = .ok q' → q'.Made

/-- **The condition of a delete that is made is well formed.** -/
theorem Delete.Made.conditionFits {q : Delete} (h : q.Made) : ConditionFits q.predicate := by
  induction h with
  | of c => exact ConditionFits.none
  | alsoMatching _ hq ih =>
    obtain ⟨⟨⟩, hp, hq⟩ := bind_eq_ok_iff.mp hq
    cases hq
    exact ih.combine hp

/-! ## Structural queries -/

/-- The creations that can be made. -/
inductive CreateCollection.Made : CreateCollection → Prop
  | of (c : CollectionRef) : Made (.of c)
  | column {q q' : CreateCollection} {c : Column} : q.Made → q.column c = .ok q' → q'.Made
  | index {q q' : CreateCollection} {i : Index} : q.Made → q.index i = .ok q' → q'.Made

namespace CreateCollection

theorem Made.addColumns : ∀ {cs : List Column} {q q' : CreateCollection}, q.Made →
    Description.addColumns q cs = .ok q' → q'.Made
  | [], _, _, hq, h => by
    cases h
    exact hq
  | c :: cs, _, _, hq, h => by
    obtain ⟨q₁, hq₁, h⟩ := bind_eq_ok_iff.mp h
    exact Made.addColumns (hq.column hq₁) h

theorem Made.addIndexes : ∀ {is : List Index} {q q' : CreateCollection}, q.Made →
    Description.addIndexes q is = .ok q' → q'.Made
  | [], _, _, hq, h => by
    cases h
    exact hq
  | i :: is, _, _, hq, h => by
    obtain ⟨q₁, hq₁, h⟩ := bind_eq_ok_iff.mp h
    exact Made.addIndexes (hq.index hq₁) h

/-- A creation that is made can be built again, by induction on the steps. -/
theorem Made.rebuild {q : CreateCollection} (h : q.Made) : q.rebuild = .ok q := by
  rw [rebuild_eq_ok_iff]
  induction h with
  | of c =>
    exact ⟨List.forall_mem_nil _, List.forall_mem_nil _, List.nodup_nil, List.nodup_nil,
      List.forall_mem_nil _⟩
  | column _ hq ih =>
    obtain ⟨hcolumns, hindexes, hconsistent⟩ := ih
    obtain ⟨hc, hfree, rfl⟩ := column_eq_ok_iff.mp hq
    refine ⟨List.forall_mem_append.mpr ⟨hcolumns, List.forall_mem_singleton.mpr hc⟩, hindexes, ?_⟩
    refine ⟨?_, hconsistent.indexes_nodup, fun i hi f hf => ?_⟩
    · rw [List.map_append, List.map_singleton, ← List.concat_eq_append]
      exact hconsistent.columns_nodup.concat hfree
    · rw [List.map_append]
      exact List.mem_append_left _ (hconsistent.covered i hi f hf)
  | index _ hq ih =>
    obtain ⟨hcolumns, hindexes, hconsistent⟩ := ih
    obtain ⟨hi, hfree, hcovered, rfl⟩ := index_eq_ok_iff.mp hq
    refine ⟨hcolumns, List.forall_mem_append.mpr ⟨hindexes, List.forall_mem_singleton.mpr hi⟩, ?_⟩
    refine ⟨hconsistent.columns_nodup, ?_,
      List.forall_mem_append.mpr ⟨hconsistent.covered, List.forall_mem_singleton.mpr hcovered⟩⟩
    rw [List.map_append, List.map_singleton, ← List.concat_eq_append]
    exact hconsistent.indexes_nodup.concat hfree

/-- **A creation can be made iff it can be built again** from its columns and then its indexes. -/
theorem made_iff_rebuild {q : CreateCollection} : q.Made ↔ q.rebuild = .ok q := by
  constructor
  · exact Made.rebuild
  · intro h
    obtain ⟨built, hbuilt, h⟩ := bind_eq_ok_iff.mp h
    exact ((Made.of q.collection).addColumns hbuilt).addIndexes h

end CreateCollection

/-- The alterations that can be made. -/
inductive AlterCollection.Made : AlterCollection → Prop
  | of (c : CollectionRef) : Made (.of c)
  | step {q q' : AlterCollection} {s : AlterStep} : q.Made → q.step s = .ok q' → q'.Made

/-- **The steps of an alteration that is made are well formed.** -/
theorem AlterCollection.Made.wellFormed {q : AlterCollection} (h : q.Made) :
    ∀ s ∈ q.steps, s.misuse? = none := by
  induction h with
  | of c => exact List.forall_mem_nil _
  | @step q q' s _ hq ih =>
    obtain ⟨⟨⟩, hs, hq⟩ := bind_eq_ok_iff.mp hq
    cases hq
    have hs : s.misuse? = none :=
      AlterStep.check_mapError_eq_ok_iff.mp (mapError_eq_ok_iff.mpr hs)
    exact List.forall_mem_append.mpr ⟨ih, List.forall_mem_singleton.mpr hs⟩

/-- The queries that can be made. The others only name a collection. -/
def Query.Made : Query → Prop
  | .select q => q.Made
  | .insert q => q.Made
  | .update q => q.Made
  | .delete q => q.Made
  | .createCollection q => q.Made
  | .alterCollection q => q.Made
  | _ => True

end SchemaMigration
