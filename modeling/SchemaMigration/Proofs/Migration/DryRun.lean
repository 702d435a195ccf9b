import SchemaMigration.Proofs.Migration.Alike
import SchemaMigration.Proofs.Migration.Grouping

/-!
# What a dry run shows

A dry run stands for a real one that is still to come. The two may be on different backends and ask
different choosers, as long as inspections and prompts are answered alike; changes may go wrong in
one and not in the other.

About `migrate` and `sql_for`.

* `AnswersAlike`: the answers that the two runs have in common.
* `migrate_ok`: what a report is made of.
* **`dryRun_shows`**: a dry run and a real run plan the same operations and batch the same queries,
  and the statements in the report of the dry run are those that the real run hands over to create
  and to alter.
-/

namespace SchemaMigration

/-- The compiled query creates or alters a collection. -/
def CompiledQuery.createsOrAlters (q : CompiledQuery) : Bool :=
  q.kind = .createCollection ∨ q.kind = .alterCollection

namespace Migrator

open SchemaMigration.Action

variable {σ σ' κ κ' : Type}

/-- The migrators have the same dialect and locales. Their backends answer inspections alike, and
their choosers answer prompts alike, in states that are related, and get to states that are related
again. -/
structure AnswersAlike (m : Migrator σ κ) (m' : Migrator σ' κ') (B : σ → σ' → Prop)
    (K : κ → κ' → Prop) : Prop where
  /-- The dialects are the same. -/
  dialect : m'.backend.dialect = m.backend.dialect
  /-- The locales are the same. -/
  locales : m'.locales = m.locales
  /-- Inspections are answered alike. -/
  inspections : ∀ q : CompiledQuery, q.Inspects m.backend.dialect → ∀ b b', B b b' →
    (m.backend.run q b).1 = (m'.backend.run q b').1 ∧
      B (m.backend.run q b).2 (m'.backend.run q b').2
  /-- Prompts are answered alike. -/
  prompts : ∀ prompt choices k k', K k k' →
    (m.chooser.choose prompt choices k).1 = (m'.chooser.choose prompt choices k').1 ∧
      K (m.chooser.choose prompt choices k).2 (m'.chooser.choose prompt choices k').2

/-- The same backend and the same chooser answer alike. -/
theorem answersAlike_dryRun (m : Migrator σ κ) (dryRun : Bool) :
    m.AnswersAlike { m with dryRun := dryRun } Eq Eq :=
  ⟨rfl, rfl, fun _ _ _ _ h => h ▸ ⟨rfl, rfl⟩, fun _ _ _ _ h => h ▸ ⟨rfl, rfl⟩⟩

section Alike

variable {m : Migrator σ κ} {m' : Migrator σ' κ'} {B : σ → σ' → Prop} {K : κ → κ' → Prop}
  (h : m.AnswersAlike m' B K)

include h

theorem AnswersAlike.plan (schema : LogicalSchema) :
    Alike (fun s s' => B s.backend s'.backend ∧ K s.chooser s'.chooser) (m.plan schema)
      (m'.plan schema) := by
  refine alike_plan h.dialect (fun q hq s s' hs => ?_) h.locales schema
  obtain ⟨hanswer, hstate⟩ := h.inspections q hq _ _ hs.1
  rw [outcome_run, outcome_run]
  exact ⟨congrArg (Except.mapError MigrationError.query) hanswer, hstate, hs.2⟩

theorem AnswersAlike.batch (ops : List DiffOperation) :
    Alike (fun s s' => B s.backend s'.backend ∧ K s.chooser s'.chooser) (m.batch ops)
      (m'.batch ops) := by
  refine alike_batch (fun prompt choices s s' hs => ?_) ops
  obtain ⟨hanswer, hstate⟩ := h.prompts prompt choices _ _ hs.2
  exact ⟨hanswer, hs.1, hstate⟩

end Alike

/-! ## What is handed over -/

/-- A batch creates and alters, and does nothing else. -/
theorem kind_of_mem_batch {m : Migrator σ κ} {s t : Situation σ κ} {ops : List DiffOperation}
    {queries : List Query} (h : (m.batch ops).outcome s = (.ok queries, t)) :
    ∀ q ∈ queries, q.kind = .createCollection ∨ q.kind = .alterCollection := by
  intro q hq
  have hbatch := congrArg Prod.fst h
  rw [outcome_batch] at hbatch
  obtain ⟨ds, -, hgroup⟩ := bind_eq_ok_iff.mp hbatch
  rw [groupQueries_eq (mapError_eq_ok_iff.mp hgroup)] at hq
  obtain ⟨c, -, hq⟩ := List.mem_flatMap.mp hq
  rcases List.mem_append.mp hq with hq | hq
  · obtain ⟨creation, -, rfl⟩ := List.mem_map.mp hq
    exact .inl rfl
  · rw [alteration] at hq
    split_ifs at hq
    · cases hq
    · rw [List.mem_singleton.mp hq]
      exact .inr rfl

/-- A report names what was planned, and if there is anything, what was batched, with the statements
of the batch. -/
theorem migrate_ok {m : Migrator σ κ} {schema : LogicalSchema} {s t : Situation σ κ}
    {report : MigrationReport} (h : (m.migrate schema).outcome s = (.ok report, t)) :
    ∃ u, (m.plan schema).outcome s = (.ok report.operations, u) ∧ (report.operations ≠ [] →
      ∃ v, (m.batch report.operations).outcome u = (.ok report.queries, v) ∧
        m.sqlFor report.queries = .ok report.sql) := by
  unfold migrate at h
  obtain ⟨operations, u, hplan, h⟩ := outcome_bind_eq_ok_iff.mp h
  by_cases hops : operations.isEmpty
  · rw [if_pos hops] at h
    cases h
    rw [List.isEmpty_iff.mp hops] at hplan
    exact ⟨_, hplan, fun hne => absurd rfl hne⟩
  · rw [if_neg hops] at h
    obtain ⟨queries, v, hbatch, h⟩ := outcome_bind_eq_ok_iff.mp h
    obtain ⟨sql, w, hlift, h⟩ := outcome_bind_eq_ok_iff.mp h
    have hsql := (outcome_lift_eq_ok_iff.mp hlift).1
    by_cases hdry : m.dryRun
    · rw [if_pos hdry] at h
      cases h
      exact ⟨u, hplan, fun _ => ⟨v, hbatch, hsql⟩⟩
    · rw [if_neg hdry] at h
      obtain ⟨applied, w', -, h⟩ := outcome_bind_eq_ok_iff.mp h
      cases h
      exact ⟨u, hplan, fun _ => ⟨v, hbatch, hsql⟩⟩

/-- A migration that is prepared hands over inspections, and then what its batch compiles to, unless
it is a dry run. -/
theorem runs_migrate_of_compile {m : Migrator σ κ} {schema : LogicalSchema} {s u v : Situation σ κ}
    {ops : List DiffOperation} {queries : List Query} {compiled : List CompiledQuery}
    (hplan : (m.plan schema).outcome s = (.ok ops, u))
    (hbatch : (m.batch ops).outcome u = (.ok queries, v)) (hcompile : m.Compile queries compiled) :
    ∃ inspected, (∀ q ∈ inspected, CompiledQuery.Inspects m.backend.dialect q) ∧
      ((m.migrate schema).outcome s).2.runs =
        s.runs ++ (inspected ++ if m.dryRun then [] else compiled) := by
  obtain ⟨inspected, hruns, hinspected⟩ := m.hands_plan schema s
  have hstill := m.still_batch ops u
  rw [hplan] at hruns
  rw [hbatch] at hstill
  have hprepares : m.Prepares schema s queries v :=
    ⟨ops, u, _, hplan, hbatch, (sqlFor_eq_ok_iff queries).mpr ⟨compiled, hcompile, rfl⟩⟩
  refine ⟨inspected, hinspected, ?_⟩
  rw [runs_migrate_of_prepares hprepares, hstill, hruns, compiling_of_compile hcompile]
  split_ifs
  · rw [List.append_nil]
  · rw [List.append_assoc]

/-- Inspections neither create nor alter. -/
theorem filter_inspected {d : Dialect} {inspected : List CompiledQuery}
    (h : ∀ q ∈ inspected, CompiledQuery.Inspects d q) :
    inspected.filter CompiledQuery.createsOrAlters = [] := by
  refine List.filter_eq_nil_iff.mpr fun q hq hkind => ?_
  have hstill := (h q hq).isStructural
  rcases of_decide_eq_true hkind with hkind | hkind <;>
    · rw [hkind] at hstill
      cases hstill

/-- What a batch compiles to creates or alters. -/
theorem filter_compiled {m : Migrator σ κ} {queries : List Query} {compiled : List CompiledQuery}
    (hkinds : ∀ q ∈ queries, q.kind = .createCollection ∨ q.kind = .alterCollection)
    (h : m.Compile queries compiled) :
    compiled.filter CompiledQuery.createsOrAlters = compiled := by
  induction h with
  | nil => rfl
  | @cons q c queries compiled hq _ ih =>
    obtain ⟨hkind, hkinds⟩ := List.forall_mem_cons.mp hkinds
    rw [← Query.kind_compile hq] at hkind
    have hc : c.createsOrAlters = true := decide_eq_true hkind
    rw [List.filter_cons_of_pos hc, ih hkinds]

/-- A report is determined by the plan, the batch and its statements. -/
theorem report_eq {m : Migrator σ κ} {schema : LogicalSchema} {s t u v : Situation σ κ}
    {ops : List DiffOperation} {queries : List Query} {sql : List String} {report : MigrationReport}
    (hplan : (m.plan schema).outcome s = (.ok ops, u)) (hne : ops ≠ [])
    (hbatch : (m.batch ops).outcome u = (.ok queries, v)) (hsql : m.sqlFor queries = .ok sql)
    (h : (m.migrate schema).outcome s = (.ok report, t)) :
    report.operations = ops ∧ report.queries = queries ∧ report.sql = sql := by
  obtain ⟨u', hplan', hmade⟩ := migrate_ok h
  rw [hplan] at hplan'
  obtain ⟨hops, rfl⟩ := Prod.mk.inj hplan'
  obtain rfl := Except.ok.inj hops
  obtain ⟨v', hbatch', hsql'⟩ := hmade hne
  rw [hbatch] at hbatch'
  obtain ⟨hqueries, -⟩ := Prod.mk.inj hbatch'
  obtain rfl := Except.ok.inj hqueries
  exact ⟨rfl, rfl, Except.ok.inj (hsql'.symm.trans hsql)⟩

/-! ## Two runs -/

variable {m : Migrator σ κ} {m' : Migrator σ' κ'} {B : σ → σ' → Prop} {K : κ → κ' → Prop}

/-- **A dry run shows what a real run does.** The two plan the same operations and batch the same
queries. If the dry run reports that there is anything to do, it has handed over nothing that
creates or alters, and the statements in its report are those of what the real run hands over to
create and to alter, in their order and whichever of them fail. A real run that does not fail
reports the same. -/
theorem dryRun_shows (h : m.AnswersAlike m' B K) (hdry : m.dryRun = true)
    (hreal : m'.dryRun = false) (schema : LogicalSchema) (s : Situation σ κ)
    (s' : Situation σ' κ') (hb : B s.backend s'.backend) (hk : K s.chooser s'.chooser) :
    ((m.plan schema).outcome s).1 = ((m'.plan schema).outcome s').1 ∧
      (∀ ops u u', (m.plan schema).outcome s = (.ok ops, u) →
        (m'.plan schema).outcome s' = (.ok ops, u') →
        ((m.batch ops).outcome u).1 = ((m'.batch ops).outcome u').1) ∧
      ∀ report t, (m.migrate schema).outcome s = (.ok report, t) → report.operations ≠ [] →
        ∃ shown handed, t.runs = s.runs ++ shown ∧
          shown.filter CompiledQuery.createsOrAlters = [] ∧
          ((m'.migrate schema).outcome s').2.runs = s'.runs ++ handed ∧
          (handed.filter CompiledQuery.createsOrAlters).flatMap CompiledQuery.sql = report.sql ∧
          ∀ report' t', (m'.migrate schema).outcome s' = (.ok report', t') →
            report'.operations = report.operations ∧ report'.queries = report.queries ∧
              report'.sql = report.sql := by
  have hplans := h.plan schema s s' ⟨hb, hk⟩
  refine ⟨hplans.1, fun ops u u' hu hu' => ?_, fun report t hreport hne => ?_⟩
  · obtain ⟨-, ht⟩ := hplans
    rw [hu, hu'] at ht
    exact (h.batch ops u u' ht).1
  · obtain ⟨u, hplan, hmade⟩ := migrate_ok hreport
    obtain ⟨v, hbatch, hsql⟩ := hmade hne
    obtain ⟨compiled, hcompile, htexts⟩ := (sqlFor_eq_ok_iff _).mp hsql
    -- the real run gets as far, and then hands over what the dry run compiled
    obtain ⟨u', hplan', hu⟩ := (h.plan schema).of_ok ⟨hb, hk⟩ hplan
    obtain ⟨v', hbatch', -⟩ := (h.batch report.operations).of_ok hu hbatch
    have hcompile' : m'.Compile report.queries compiled := by
      unfold Compile
      rwa [h.dialect]
    obtain ⟨shown, hshown, hruns⟩ := runs_migrate_of_compile hplan hbatch hcompile
    obtain ⟨inspected, hinspected, hruns'⟩ := runs_migrate_of_compile hplan' hbatch' hcompile'
    rw [hreport, if_pos hdry, List.append_nil] at hruns
    rw [hreal, if_neg Bool.false_ne_true] at hruns'
    refine ⟨shown, inspected ++ compiled, hruns, filter_inspected hshown, hruns', ?_,
      fun report' t' hr => ?_⟩
    · rw [List.filter_append, filter_inspected hinspected,
        filter_compiled (kind_of_mem_batch hbatch) hcompile, List.nil_append, htexts]
    · exact report_eq hplan' hne hbatch'
        ((sqlFor_eq_ok_iff _).mpr ⟨compiled, hcompile', htexts⟩) hr

end Migrator

/-! ## An example -/

/-- The migrator of the older posts, in a dry run. -/
def Posts.rehearsal : Migrator Unit Unit := { Posts.migrator with dryRun := true }

/-- What the dry run shows for the older posts is handed over by the real run, which then fails. -/
theorem Migrator.dryRun_shows_of_posts :
    ∃ report t handed,
      (Posts.rehearsal.migrate Posts.schemas).outcome ⟨(), (), []⟩ = (.ok report, t) ∧
      report.operations ≠ [] ∧
      ((Posts.migrator.migrate Posts.schemas).outcome ⟨(), (), []⟩).2.runs = handed ∧
      (handed.filter CompiledQuery.createsOrAlters).flatMap CompiledQuery.sql = report.sql := by
  have hreport : (Posts.rehearsal.migrate Posts.schemas).outcome ⟨(), (), []⟩ = (.ok _, _) := rfl
  obtain ⟨-, -, hshows⟩ := Migrator.dryRun_shows (Posts.rehearsal.answersAlike_dryRun false) rfl rfl
    Posts.schemas ⟨(), (), []⟩ ⟨(), (), []⟩ rfl rfl
  obtain ⟨shown, handed, -, -, hruns, hsql, -⟩ := hshows _ _ hreport (List.cons_ne_nil _ _)
  exact ⟨_, _, handed, hreport, List.cons_ne_nil _ _, hruns, hsql⟩

end SchemaMigration
