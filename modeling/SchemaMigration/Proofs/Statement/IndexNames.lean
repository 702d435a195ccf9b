import SchemaMigration.Proofs.Checks
import SchemaMigration.Proofs.Description.Expansion
import SchemaMigration.Proofs.Statement.Lexemes
import SchemaMigration.Proofs.Statement.Trace

/-!
# Names of indexes across a renaming

An alteration names an index after the table as the renamings before a step left it, while an index
keeps its name when its table is renamed. What a `DROP INDEX` names is therefore the index that the
handle stands for exactly as long as no renaming has come between.

About `compile_alter`, with `index_name`.

* `Statement.createdIndex?`, `Statement.droppedIndex?`: the name of the index that a statement
  creates or drops, read off its text.
* `AlterStep.names_statements`: only the steps that add and drop an index write such statements.
* `standingName`: the name of the index that a handle stands for after some steps;
  `standingName_of_emits`: it is the name on the table of `namingTable`.
* **`AlterCollection.dropsStanding_iff`**: every dropped index is the one that the handle stands for
  iff no renaming changed the table's name since that index was named.
-/

namespace SchemaMigration

open Lexeme

/-! ## Names in a statement -/

namespace Lexeme

/-- The name of the index that a statement creates. -/
def createdIndex? : List Lexeme → Option String
  | .word "CREATE" :: .word "INDEX" :: .name s :: _ => some s
  | .word "CREATE" :: .word "UNIQUE" :: .word "INDEX" :: .name s :: _ => some s
  | _ => none

/-- The name of the index that a statement drops. -/
def droppedIndex? : List Lexeme → Option String
  | [.word "DROP", .word "INDEX", .name s] => some s
  | _ => none

end Lexeme

/-- The name of the index that a statement creates, read off its text. -/
def Statement.createdIndex? (s : Statement) : Option String :=
  s.unbound?.bind Lexeme.createdIndex?

/-- The name of the index that a statement drops, read off its text. -/
def Statement.droppedIndex? (s : Statement) : Option String :=
  s.unbound?.bind Lexeme.droppedIndex?

namespace Ddl

/-- The name of the index that a structural statement creates. -/
def createdIndex? : Ddl → Option String
  | .createIndex _ physical _ _ => some physical
  | _ => none

/-- The name of the index that a structural statement drops. -/
def droppedIndex? : Ddl → Option String
  | .dropIndex physical => some physical
  | _ => none

variable {s : Ddl} {d : Dialect}

theorem unbound?_statement (h : s.Safe) :
    (s.statement d).unbound? = some (unbound d 1 (s.pieces d)) :=
  (clean_pieces h).1.unbound?_ofPieces d

theorem createdIndex?_statement (h : s.Safe) : (s.statement d).createdIndex? = s.createdIndex? := by
  rw [Statement.createdIndex?, unbound?_statement h, Option.bind_some]
  cases s with
  | createIndex unique name table columns =>
    show Lexeme.createdIndex? (unbound d 1 (.words _ :: .name name :: _)) = _
    rw [unbound_words, unbound_name]
    cases unique <;> rfl
  | copyColumn table target source cast => cases cast <;> rfl
  | setDefault table name default => cases default <;> rfl
  | _ => rfl

theorem droppedIndex?_statement (h : s.Safe) : (s.statement d).droppedIndex? = s.droppedIndex? := by
  rw [Statement.droppedIndex?, unbound?_statement h, Option.bind_some]
  cases s with
  | createIndex unique name table columns => cases unique <;> rfl
  | copyColumn table target source cast => cases cast <;> rfl
  | setDefault table name default => cases default <;> rfl
  | dropIndex name =>
    show Lexeme.droppedIndex? (unbound d 1 [.words "DROP INDEX ", .name name]) = _
    rw [unbound_words, unbound_name]
    rfl
  | _ => rfl

end Ddl

/-! ## Names that a step writes -/

namespace AlterStep

/-- The name of the index that a step on a table creates. -/
def created? (table : CollectionRef) : AlterStep → Option String
  | .addIndex index => if index.isPrimary then none else some (indexName table index.name)
  | _ => none

/-- The name of the index that a step on a table drops. -/
def dropped? (table : CollectionRef) : AlterStep → Option String
  | .dropIndex handle => if handle = primaryName then none else some (indexName table handle)
  | _ => none

/-- The step adds the index of a handle. -/
def adds (handle : String) : AlterStep → Bool
  | .addIndex index => index.name == handle
  | _ => false

variable {d : Dialect} {table : CollectionRef} {step : AlterStep}

theorem replaceColumn_names {source : String} {column : Column} {ds : List Ddl}
    (h : d.replaceColumn table source column = .ok ds) :
    ds.filterMap Ddl.createdIndex? = [] ∧ ds.filterMap Ddl.droppedIndex? = [] := by
  obtain ⟨add, hadd, h⟩ := bind_eq_ok_iff.mp h
  obtain ⟨clause, -, hadd⟩ := bind_eq_ok_iff.mp hadd
  cases h
  cases hadd
  cases d <;> exact ⟨rfl, rfl⟩

theorem alterColumn_names {source : String} {column : Column} {ds : List Ddl}
    (h : d.alterColumn table source column = .ok ds) :
    ds.filterMap Ddl.createdIndex? = [] ∧ ds.filterMap Ddl.droppedIndex? = [] := by
  cases d with
  | sqlite =>
    unfold Dialect.alterColumn at h
    simp only at h
    split at h
    · obtain ⟨moved, hmoved, h⟩ := bind_eq_ok_iff.mp h
      cases h
      obtain ⟨hcreated, hdropped⟩ := replaceColumn_names hmoved
      rw [List.filterMap_append, List.filterMap_append, hcreated, hdropped]
      exact ⟨rfl, rfl⟩
    · exact replaceColumn_names h
  | postgres =>
    cases h
    unfold Dialect.reshapeColumn
    split <;> exact ⟨rfl, rfl⟩

/-- Only the steps that add and drop an index write the statements that do. -/
theorem ddl_names {ds : List Ddl} (h : step.ddl d table = .ok ds) :
    ds.filterMap Ddl.createdIndex? = (step.created? table).toList ∧
      ds.filterMap Ddl.droppedIndex? = (step.dropped? table).toList := by
  cases step with
  | addColumn column source =>
    obtain ⟨add, hadd, h⟩ := bind_eq_ok_iff.mp h
    obtain ⟨clause, -, hadd⟩ := bind_eq_ok_iff.mp hadd
    cases h
    cases hadd
    cases source with
    | none => exact ⟨rfl, rfl⟩
    | some source => cases d <;> exact ⟨rfl, rfl⟩
  | alterColumn source column => exact alterColumn_names h
  | dropColumn name =>
    cases h
    exact ⟨rfl, rfl⟩
  | addIndex index =>
    unfold ddl at h
    unfold created?
    by_cases hprimary : index.isPrimary = true
    · simp only [hprimary, if_true] at h ⊢
      obtain ⟨s, hs, rfl⟩ := map_eq_ok_iff.mp h
      cases d <;> cases hs
      exact ⟨rfl, rfl⟩
    · simp only [hprimary] at h ⊢
      cases h
      exact ⟨rfl, rfl⟩
  | dropIndex name =>
    unfold ddl at h
    unfold dropped?
    by_cases hprimary : name = primaryName
    · simp only [hprimary, if_true] at h ⊢
      obtain ⟨s, hs, rfl⟩ := map_eq_ok_iff.mp h
      cases d <;> cases hs
      exact ⟨rfl, rfl⟩
    · simp only [hprimary, if_false] at h ⊢
      cases h
      exact ⟨rfl, rfl⟩
  | rename target =>
    cases h
    exact ⟨rfl, rfl⟩

/-- The names of indexes in the text of a step. -/
theorem names_statements {ds : List Ddl} (hstep : step.misuse? = none)
    (h : step.ddl d table = .ok ds) :
    (ds.map (Ddl.statement d)).filterMap Statement.createdIndex? = (step.created? table).toList ∧
      (ds.map (Ddl.statement d)).filterMap Statement.droppedIndex? =
        (step.dropped? table).toList := by
  have hsafe := (ddl_ok hstep h).1
  rw [← (ddl_names h).1, ← (ddl_names h).2, List.filterMap_map, List.filterMap_map]
  exact ⟨List.filterMap_congr fun s hs => Ddl.createdIndex?_statement (hsafe s hs),
    List.filterMap_congr fun s hs => Ddl.droppedIndex?_statement (hsafe s hs)⟩

/-- An accepted step that adds the index of another handle than the primary one creates it. -/
theorem created?_of_adds {handle : String} (hstep : step.misuse? = none)
    (hprimary : handle ≠ primaryName) (h : step.adds handle = true) :
    step.created? table = some (indexName table handle) := by
  cases step with
  | addIndex index =>
    obtain rfl : index.name = handle := beq_iff_eq.mp h
    have hkind := Index.isPrimary_eq hstep
    rw [decide_eq_false hprimary] at hkind
    rw [created?, hkind]
    rfl
  | addColumn column source => cases h
  | alterColumn source column => cases h
  | dropColumn name => cases h
  | dropIndex name => cases h
  | rename target => cases h

theorem dropped?_eq_some_iff {physical : String} :
    step.dropped? table = some physical ↔ ∃ handle, step = .dropIndex handle ∧
      handle ≠ primaryName ∧ physical = indexName table handle := by
  cases step <;> simp [dropped?, eq_comm]

end AlterStep

/-! ## What a handle stands for -/

/-- The name of the index that a handle stands for after some steps: the name in the last statement
that created it, or the name from the start. Renaming a table leaves its indexes their names. -/
def standingName (handle start : String) (trace : AlterTrace) : String :=
  trace.foldl (fun physical entry =>
    if entry.1.adds handle then (entry.2.findSome? Statement.createdIndex?).getD physical
    else physical) start

/-- The table that the index of a handle is named on: the table at the last step that adds the
index, or the table from the start. -/
def namingTable (handle : String) (naming table : CollectionRef) :
    List AlterStep → CollectionRef
  | [] => naming
  | step :: r =>
    namingTable handle (if step.adds handle then table else naming) (step.tableAfter table) r

/-- Every `DROP INDEX` of an alteration comes from a step that drops the index of a handle, and
names the index that the handle stands for there. -/
def AlterCollection.DropsStanding (d : Dialect) (vars : Variables) (q : AlterCollection) : Prop :=
  ∃ trace : AlterTrace, q.IsTrace d vars trace ∧
    ∀ before step ss after, trace = before ++ (step, ss) :: after →
      ∀ s ∈ ss, ∀ physical, s.droppedIndex? = some physical →
        ∃ handle, step = .dropIndex handle ∧
          physical = standingName handle (indexName q.collection handle) before

theorem indexName_eq_iff {a b : CollectionRef} {handle : String} :
    indexName a handle = indexName b handle ↔ a.identity = b.identity := by
  rw [indexName, indexName, String.append_left_inj, String.append_left_inj]

namespace AlterCollection

variable {d : Dialect} {vars : Variables} {q : AlterCollection} {handle : String}

/-- A handle stands for its name on the table where its index was named. -/
theorem standingName_of_emits {naming table : CollectionRef} {trace : AlterTrace}
    (hprimary : handle ≠ primaryName) (h : Emits d table trace) :
    standingName handle (indexName naming handle) trace =
      indexName (namingTable handle naming table (trace.map Prod.fst)) handle := by
  induction trace generalizing naming table with
  | nil => rfl
  | cons entry trace ih =>
    obtain ⟨step, ss⟩ := entry
    obtain ⟨⟨hstep, ds, hds, rfl⟩, h⟩ := h
    rw [List.map_cons, namingTable, ← ih h, standingName, List.foldl_cons, ← standingName]
    by_cases hadds : step.adds handle = true
    · have hcreated := (AlterStep.names_statements hstep hds).1
      rw [if_pos hadds, if_pos hadds, ← List.head?_filterMap, hcreated,
        AlterStep.created?_of_adds hstep hprimary hadds]
      rfl
    · rw [if_neg hadds, if_neg hadds]

/-- A step that drops the index of a handle drops its index on the table there. -/
theorem Emits.exists_dropped {table : CollectionRef} {before after : AlterTrace}
    {ss : List Statement} (h : Emits d table (before ++ (.dropIndex handle, ss) :: after))
    (hprimary : handle ≠ primaryName) :
    ∃ s ∈ ss, s.droppedIndex? =
      some (indexName (tableAfter table (before.map Prod.fst)) handle) := by
  obtain ⟨-, ⟨⟨hmisuse, ds, hds, rfl⟩, -⟩⟩ := emits_append_iff.mp h
  rw [← List.mem_filterMap, (AlterStep.names_statements hmisuse hds).2,
    AlterStep.dropped?_eq_some_iff.mpr ⟨handle, rfl, hprimary, rfl⟩]
  exact List.mem_singleton_self _

/-- A compiled alteration that drops the index of a handle drops its index on the table there. -/
theorem exists_dropped_of_compile {cq : CompiledQuery} {before after : List AlterStep}
    (hcq : (Query.alterCollection q).compile d vars = .ok cq)
    (hsteps : q.steps = before ++ .dropIndex handle :: after) (hprimary : handle ≠ primaryName) :
    ∃ s ∈ cq.statements,
      s.droppedIndex? = some (indexName (tableAfter q.collection before) handle) := by
  obtain ⟨trace, hmap, hemits, htext⟩ := exists_compile_iff.mp ⟨cq, hcq, rfl⟩
  obtain ⟨first, ss, last, rfl, rfl⟩ := exists_cut (hmap.trans hsteps)
  obtain ⟨s, hs, hdropped⟩ := hemits.exists_dropped hprimary
  refine ⟨s, ?_, hdropped⟩
  rw [htext]
  exact List.mem_flatMap.mpr ⟨_, List.mem_append_right _ List.mem_cons_self, hs⟩

/-- Where every dropped index is the one its handle stands for, no renaming came between. -/
theorem DropsStanding.identity_eq (h : q.DropsStanding d vars) {before after : List AlterStep}
    (hsteps : q.steps = before ++ .dropIndex handle :: after) (hprimary : handle ≠ primaryName) :
    (namingTable handle q.collection q.collection before).identity =
      (tableAfter q.collection before).identity := by
  obtain ⟨trace, htrace, hdrops⟩ := h
  obtain ⟨hmap, hemits⟩ := isTrace_iff_emits.mp htrace
  obtain ⟨first, ss, last, rfl, rfl⟩ := exists_cut (hmap.trans hsteps)
  obtain ⟨s, hs, hphysical⟩ := hemits.exists_dropped hprimary
  obtain ⟨handle', hhandle, hstanding⟩ := hdrops first _ ss last rfl s hs _ hphysical
  cases hhandle
  rw [standingName_of_emits hprimary (emits_append_iff.mp hemits).1] at hstanding
  exact (indexName_eq_iff.mp hstanding).symm

/-- Where no renaming came between, every dropped index is the one its handle stands for. -/
theorem dropsStanding_of_identity_eq {cq : CompiledQuery}
    (hcq : (Query.alterCollection q).compile d vars = .ok cq)
    (h : ∀ before handle after, q.steps = before ++ .dropIndex handle :: after →
      handle ≠ primaryName → (namingTable handle q.collection q.collection before).identity =
        (tableAfter q.collection before).identity) : q.DropsStanding d vars := by
  obtain ⟨trace, hmap, hemits, -⟩ := exists_compile_iff.mp ⟨cq, hcq, rfl⟩
  refine ⟨trace, isTrace_iff_emits.mpr ⟨hmap, hemits⟩, ?_⟩
  rintro before step ss after rfl s hs physical hphysical
  obtain ⟨hbefore, ⟨⟨hmisuse, ds, hds, rfl⟩, -⟩⟩ := emits_append_iff.mp hemits
  have hname : physical ∈ (ds.map (Ddl.statement d)).filterMap Statement.droppedIndex? :=
    List.mem_filterMap.mpr ⟨s, hs, hphysical⟩
  rw [(AlterStep.names_statements hmisuse hds).2, Option.mem_toList] at hname
  obtain ⟨handle, rfl, hprimary, rfl⟩ := AlterStep.dropped?_eq_some_iff.mp hname
  refine ⟨handle, rfl, ?_⟩
  rw [standingName_of_emits hprimary hbefore, indexName_eq_iff]
  exact (h _ handle _ (by rw [← hmap, List.map_append]; rfl) hprimary).symm

/-- **A dropped index is the one that its handle stands for** iff the table has the same name there
as where that index was named: at the last step before that adds an index of the handle, and else at
the start. -/
theorem dropsStanding_iff {cq : CompiledQuery}
    (hcq : (Query.alterCollection q).compile d vars = .ok cq) :
    q.DropsStanding d vars ↔
      ∀ before handle after, q.steps = before ++ .dropIndex handle :: after →
        handle ≠ primaryName → (namingTable handle q.collection q.collection before).identity =
          (tableAfter q.collection before).identity :=
  ⟨fun h _ _ _ hsteps hprimary => h.identity_eq hsteps hprimary,
    dropsStanding_of_identity_eq hcq⟩

theorem tables_of_unrenamed {steps : List AlterStep} (h : ∀ target, .rename target ∉ steps)
    (handle : String) (table : CollectionRef) :
    namingTable handle table table steps = table ∧ tableAfter table steps = table := by
  induction steps with
  | nil => exact ⟨rfl, rfl⟩
  | cons step rest ih =>
    have hstep : step.tableAfter table = table := by
      cases step with
      | rename target => exact absurd List.mem_cons_self (h target)
      | _ => rfl
    rw [namingTable, tableAfter, List.foldl_cons, hstep, ite_self]
    exact ih fun target htarget => h target (List.mem_cons_of_mem step htarget)

/-- Without a renaming every dropped index is the one that its handle stands for. -/
theorem dropsStanding_of_unrenamed {cq : CompiledQuery}
    (hcq : (Query.alterCollection q).compile d vars = .ok cq)
    (h : ∀ target, .rename target ∉ q.steps) : q.DropsStanding d vars := by
  refine dropsStanding_of_identity_eq hcq fun before handle after hsteps _ => ?_
  have hbefore : ∀ target, .rename target ∉ before := by
    intro target htarget
    exact h target (hsteps ▸ List.mem_append_left _ htarget)
  obtain ⟨hnaming, htable⟩ := tables_of_unrenamed hbefore handle q.collection
  rw [hnaming, htable]

end AlterCollection

namespace Posts

/-- The collection of posts under its new name. -/
def renamed : CollectionRef := ⟨none, "article", scope_valid, rfl⟩

/-- Adds the index of posts by their title. -/
def addTitles : AlterStep := .addIndex ⟨"titles", .unique, Index.ascending ["title"]⟩

/-- An index is built again on the renamed table before it is dropped once more. -/
def droppedAgain : AlterCollection :=
  ⟨collection, [.dropIndex "titles", .rename renamed, addTitles, .dropIndex "titles"]⟩

/-- An index is dropped on the other side of a renaming. -/
def droppedLate : AlterCollection :=
  ⟨collection, [addTitles, .rename renamed, .dropIndex "titles"]⟩

end Posts

/-- An index that is built after a renaming is dropped by its new name. -/
theorem AlterCollection.dropsStanding_of_posts :
    ∃ cq, (Query.alterCollection Posts.droppedAgain).compile .sqlite [] = .ok cq ∧
      Posts.droppedAgain.DropsStanding .sqlite [] := by
  have hcompile : ∃ cq, (Query.alterCollection Posts.droppedAgain).compile .sqlite [] = .ok cq :=
    ⟨_, rfl⟩
  obtain ⟨cq, hcq⟩ := hcompile
  refine ⟨cq, hcq, (AlterCollection.dropsStanding_iff hcq).mpr ?_⟩
  intro before handle after hsteps _
  match before with
  | [] => rfl
  | [_] => cases hsteps
  | [_, _] => cases hsteps
  | [_, _, _] =>
    cases hsteps
    decide
  | _ :: _ :: _ :: _ :: _ =>
    have := congrArg List.length hsteps
    simp [Posts.droppedAgain] at this

/-- An index that was built before a renaming is not the one that is dropped after it. -/
theorem AlterCollection.droppedLate_misses :
    (∃ cq, (Query.alterCollection Posts.droppedLate).compile .sqlite [] = .ok cq ∧
      cq.sql = ["CREATE UNIQUE INDEX \"post_titles\" ON \"post\" (\"title\" ASC)",
        "ALTER TABLE \"post\" RENAME TO \"article\"", "DROP INDEX \"article_titles\""]) ∧
      ¬ Posts.droppedLate.DropsStanding .sqlite [] := by
  constructor
  · exact ⟨_, rfl, by decide +kernel⟩
  · intro h
    have hsteps : Posts.droppedLate.steps =
        [Posts.addTitles, .rename Posts.renamed] ++ .dropIndex "titles" :: [] := rfl
    exact absurd (h.identity_eq hsteps (by decide)) (by decide)

end SchemaMigration
