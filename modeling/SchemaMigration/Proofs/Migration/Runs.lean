import Mathlib.Data.List.Forall2
import SchemaMigration.Migration.Migrate
import SchemaMigration.Proofs.Description.Expansion
import SchemaMigration.Proofs.Migration.Action

/-!
# What a migration hands to its backend

A migration plans, batches, compiles and dispatches. Only planning and dispatching hand compiled
queries to the backend, and planning hands it inspections.

About `migrate`.

* `hands_plan`: a plan inspects, whatever comes of it; `still_batch`: deciding and grouping hand
  the backend nothing.
* `sqlFor_eq_ok_iff`: the statements of a batch are known iff every query of it compiles.
* `Backend.executeAll`: the answers to queries that are executed one after the other.
* `outcome_dispatch`: dispatching never stops half way. It executes every query and reports the
  failures.
* **`migrate_runs`**: up to the moment when everything is decided and compiled the backend is only
  inspected; after it every query is run once, or none at all in a dry run.
-/

namespace SchemaMigration

/-- The compiled query asks whether a collection exists, or for its columns and indexes. -/
def CompiledQuery.Inspects (d : Dialect) (q : CompiledQuery) : Prop :=
  ∃ c, (Query.collectionExists c).compile d [] = .ok q ∨
    (Query.describeCollection c).compile d [] = .ok q

/-- A compiled query has the kind of the query that it came from. -/
theorem Query.kind_compile {d : Dialect} {vars : Variables} {q : Query} {c : CompiledQuery}
    (h : q.compile d vars = .ok c) : c.kind = q.kind := by
  obtain ⟨statements, -, h⟩ := bind_eq_ok_iff.mp h
  cases h
  rfl

/-- The answers to queries that are executed one after the other, whatever comes of the others, and
the state after the last of them. -/
def Backend.executeAll {σ : Type} (b : Backend σ) :
    List Query → σ → List (Except Error QueryResult) × σ
  | [], s => ([], s)
  | q :: r, s =>
    let (answer, t) := b.execute [] q s
    let (answers, u) := b.executeAll r t
    (answer :: answers, u)

theorem Backend.executeAll_cons {σ : Type} (b : Backend σ) (q : Query) (r : List Query) (s : σ) :
    b.executeAll (q :: r) s =
      ((b.execute [] q s).1 :: (b.executeAll r (b.execute [] q s).2).1,
        (b.executeAll r (b.execute [] q s).2).2) := rfl

/-- An inspection changes no structure. -/
theorem CompiledQuery.Inspects.isStructural {d : Dialect} {q : CompiledQuery} (h : q.Inspects d) :
    q.kind.isStructural = false := by
  obtain ⟨c, h | h⟩ := h
  · rw [Query.kind_compile h]
    rfl
  · rw [Query.kind_compile h]
    rfl

namespace Migrator

open SchemaMigration.Action

variable {σ κ : Type} (m : Migrator σ κ) {P : CompiledQuery → Prop}

theorem outcome_run (q : CompiledQuery) (s : Situation σ κ) :
    (m.run q).outcome s = ((m.backend.run q s.backend).1.mapError .query,
      ⟨(m.backend.run q s.backend).2, s.chooser, s.runs ++ [q]⟩) := rfl

/-! ## Planning inspects -/

/-- A query is handed over as what it compiles to, or not at all. -/
theorem hands_execute {q : Query} (h : ∀ c, q.compile m.backend.dialect [] = .ok c → P c) :
    (m.execute q).Hands P := by
  unfold execute
  cases hq : q.compile m.backend.dialect [] with
  | error e => exact (still_throw _).hands
  | ok c =>
    intro s
    refine ⟨[c], ?_, fun c' hc' => ?_⟩
    · show ((m.run c).outcome s).2.runs = s.runs ++ [c]
      rw [outcome_run]
    · rw [List.mem_singleton.mp hc']
      exact h c hq

theorem hands_describeLive (c : CollectionRef) (locales : List String) :
    (m.describeLive c locales).Hands (CompiledQuery.Inspects m.backend.dialect) := by
  refine (m.hands_execute fun q hq => ⟨c, Or.inl hq⟩).bind fun answer =>
    (still_lift _).hands.bind fun found => ?_
  cases found with
  | false => exact (still_pure _).hands
  | true =>
    exact (m.hands_execute fun q hq => ⟨c, Or.inr hq⟩).bind fun answer =>
      (still_lift _).hands.bind fun live => (still_pure _).hands

theorem hands_planCollection (locales : List String) (s : CollectionSchema) :
    (m.planCollection locales s).Hands (CompiledQuery.Inspects m.backend.dialect) :=
  (still_lift _).hands.bind fun _ =>
    (m.hands_describeLive _ locales).bind fun _ => (still_pure _).hands

theorem hands_planAll (locales : List String) : ∀ cs : List CollectionSchema,
    (m.planAll locales cs).Hands (CompiledQuery.Inspects m.backend.dialect)
  | [] => (still_pure _).hands
  | s :: r => (m.hands_planCollection locales s).bind fun _ =>
      (hands_planAll locales r).bind fun _ => (still_pure _).hands

theorem hands_plan (schema : LogicalSchema) :
    (m.plan schema).Hands (CompiledQuery.Inspects m.backend.dialect) :=
  m.hands_planAll _ _

/-! ## Deciding hands over nothing -/

theorem still_put (prompt : String) (choices : List Choice) : (m.put prompt choices).Still :=
  fun _ => rfl

theorem still_ask (c : CollectionRef) (prompt : String) (choices : List Choice) :
    (m.ask c prompt choices).Still := by
  refine (m.still_put prompt choices).bind fun answer => ?_
  cases answer with
  | none => exact still_throw _
  | some key =>
    by_cases h : offers choices key
    · simp only [if_pos h]
      exact still_pure key
    · simp only [if_neg h]
      exact still_throw _

theorem still_consult (op : DiffOperation) : (m.consult op).Still := by
  unfold consult
  cases op.prompt? with
  | none => exact still_pure _
  | some p => exact (m.still_ask _ _ _).bind fun _ => still_pure _

theorem still_decide (op : DiffOperation) : (m.decide op).Still := by
  refine (m.still_consult op).bind fun answer => ?_
  cases settle op answer with
  | ok d => exact still_pure d
  | error e => exact still_throw e

theorem still_decideAll : ∀ ops : List DiffOperation, (m.decideAll ops).Still
  | [] => still_pure _
  | op :: r => (m.still_decide op).bind fun _ => (still_decideAll r).bind fun _ => still_pure _

theorem still_batch (ops : List DiffOperation) : (m.batch ops).Still :=
  (m.still_decideAll ops).bind fun _ => still_lift _

/-! ## Dispatching -/

/-- The queries that compile, compiled. -/
def compiling (queries : List Query) : List CompiledQuery :=
  queries.filterMap fun q => (q.compile m.backend.dialect []).toOption

/-- Every query compiles, to these compiled queries. -/
def Compile (queries : List Query) (compiled : List CompiledQuery) : Prop :=
  List.Forall₂ (fun q c => q.compile m.backend.dialect [] = .ok c) queries compiled

variable {m}

theorem compiling_of_compile {queries : List Query} {compiled : List CompiledQuery}
    (h : m.Compile queries compiled) : m.compiling queries = compiled := by
  induction h with
  | nil => rfl
  | cons hq _ ih =>
    show List.filterMap _ _ = _
    rw [List.filterMap_cons_some (by rw [hq]; rfl)]
    exact congrArg _ ih

theorem sqlFor_eq_ok_iff : ∀ (queries : List Query) {sql : List String},
    m.sqlFor queries = .ok sql ↔
      ∃ compiled, m.Compile queries compiled ∧ compiled.flatMap CompiledQuery.sql = sql
  | [], sql => by
    constructor
    · intro h
      cases h
      exact ⟨[], List.Forall₂.nil, rfl⟩
    · rintro ⟨compiled, h, rfl⟩
      cases h
      rfl
  | q :: r, sql => by
    simp only [sqlFor, bind_eq_ok_iff, sqlFor_eq_ok_iff r]
    constructor
    · rintro ⟨c, hc, rest, ⟨cs, hcs, rfl⟩, h⟩
      exact ⟨c :: cs, List.Forall₂.cons hc hcs, Except.ok.inj h⟩
    · rintro ⟨compiled, h, rfl⟩
      obtain ⟨c, cs, hc, hcs, rfl⟩ := List.forall₂_cons_left_iff.mp h
      exact ⟨c, hc, _, ⟨cs, hcs, rfl⟩, rfl⟩

variable (m)

theorem compiling_append (queries queries' : List Query) :
    m.compiling (queries ++ queries') = m.compiling queries ++ m.compiling queries' :=
  List.filterMap_append

/-- A migrator executes a query as its backend does. It hands the query over if it compiles, and
leaves the chooser alone. -/
theorem outcome_execute (q : Query) (s : Situation σ κ) :
    (m.execute q).outcome s = ((m.backend.execute [] q s.backend).1.mapError .query,
      ⟨(m.backend.execute [] q s.backend).2, s.chooser, s.runs ++ m.compiling [q]⟩) := by
  unfold execute Backend.execute compiling
  cases hq : q.compile m.backend.dialect [] with
  | error e =>
    rw [List.filterMap_cons_none (by rw [hq]; rfl), List.filterMap_nil, List.append_nil]
    rfl
  | ok c =>
    rw [List.filterMap_cons_some (by rw [hq]; rfl), List.filterMap_nil]
    exact m.outcome_run c s

/-- An attempt at a query that can be executed keeps no failure. -/
theorem outcome_attempt_of_ok {q : Query} {s t : Situation σ κ} {answer : QueryResult}
    (h : (m.execute q).outcome s = (.ok answer, t)) : (m.attempt q).outcome s = (.ok none, t) := by
  unfold attempt
  generalize m.execute q = a at h
  unfold outcome at h ⊢
  simp only [ExceptT.run, bind, StateT.bind, ExceptT.mk] at h ⊢
  rw [h]
  rfl

/-- An attempt at a query that fails keeps its failure, and does not fail itself. -/
theorem outcome_attempt_of_error {q : Query} {s t : Situation σ κ} {e : MigrationError}
    (h : (m.execute q).outcome s = (.error e, t)) :
    (m.attempt q).outcome s = (.ok (some e), t) := by
  unfold attempt
  generalize m.execute q = a at h
  unfold outcome at h ⊢
  simp only [ExceptT.run, bind, StateT.bind, ExceptT.mk] at h ⊢
  rw [h]
  rfl

/-- An attempt never fails. It executes the query and keeps why that failed, if it did. -/
theorem outcome_attempt (q : Query) (s : Situation σ κ) :
    (m.attempt q).outcome s = (.ok ((failure? (m.backend.execute [] q s.backend).1).map .query),
      ⟨(m.backend.execute [] q s.backend).2, s.chooser, s.runs ++ m.compiling [q]⟩) := by
  have h := m.outcome_execute q s
  cases hanswer : (m.backend.execute [] q s.backend).1 with
  | ok answer =>
    rw [hanswer] at h
    exact m.outcome_attempt_of_ok h
  | error e =>
    rw [hanswer] at h
    exact m.outcome_attempt_of_error h

/-- All attempts together never fail. They execute every query, whatever the others do, and keep
the failures in order. -/
theorem outcome_attemptAll : ∀ (queries : List Query) (s : Situation σ κ),
    (m.attemptAll queries).outcome s =
      (.ok (((m.backend.executeAll queries s.backend).1.filterMap failure?).map .query),
        ⟨(m.backend.executeAll queries s.backend).2, s.chooser, s.runs ++ m.compiling queries⟩)
  | [], s => by
    rw [compiling, List.filterMap_nil, List.append_nil]
    rfl
  | q :: r, s => by
    unfold attemptAll
    rw [outcome_bind_of_ok (m.outcome_attempt q s),
      outcome_bind_of_ok (outcome_attemptAll r ⟨_, _, _⟩), outcome_pure, List.append_assoc,
      ← compiling_append]
    rw [Backend.executeAll_cons, List.filterMap_cons]
    cases (m.backend.execute [] q s.backend).1 <;> rfl

/-- A dispatch executes every query, and then reports the failures. -/
theorem outcome_dispatch (queries : List Query) (s : Situation σ κ) :
    (m.dispatch queries).outcome s =
      (match MigrationError.ofFailures?
          (((m.backend.executeAll queries s.backend).1.filterMap failure?).map .query) with
        | none => .ok queries.length
        | some e => .error e,
        ⟨(m.backend.executeAll queries s.backend).2, s.chooser,
          s.runs ++ m.compiling queries⟩) := by
  unfold dispatch
  rw [outcome_bind_of_ok (m.outcome_attemptAll queries s)]
  cases MigrationError.ofFailures? _ <;> rfl

/-- Whatever comes of a dispatch, it hands over the queries that compile, in order. -/
theorem runs_dispatch (queries : List Query) (s : Situation σ κ) :
    ((m.dispatch queries).outcome s).2.runs = s.runs ++ m.compiling queries := by
  rw [outcome_dispatch]

/-! ## Migrating -/

/-- Everything before the dispatch goes well: the plan is made, every decision is made and batched,
and every query of the batch compiles. -/
def Prepares (schema : LogicalSchema) (s : Situation σ κ) (queries : List Query)
    (t : Situation σ κ) : Prop :=
  ∃ operations u sql, (m.plan schema).outcome s = (.ok operations, u) ∧
    (m.batch operations).outcome u = (.ok queries, t) ∧ m.sqlFor queries = .ok sql

variable {m} {schema : LogicalSchema} {s : Situation σ κ}

/-- A plan without operations makes an empty batch. -/
theorem outcome_batch_nil (s : Situation σ κ) : (m.batch []).outcome s = (.ok [], s) := rfl

/-- A migration that is prepared dispatches its batch, unless it is a dry run. -/
theorem runs_migrate_of_prepares {queries : List Query} {t : Situation σ κ}
    (h : m.Prepares schema s queries t) :
    ((m.migrate schema).outcome s).2.runs =
      if m.dryRun then t.runs else t.runs ++ m.compiling queries := by
  obtain ⟨operations, u, sql, hplan, hbatch, hsql⟩ := h
  unfold migrate
  rw [outcome_bind_of_ok hplan]
  cases operations with
  | nil =>
    rw [outcome_batch_nil] at hbatch
    cases hbatch
    show t.runs = _
    rw [compiling, List.filterMap_nil, List.append_nil, ite_self]
  | cons op r =>
    have hlift : (lift (m.sqlFor queries) : Action σ κ _).outcome t = (.ok sql, t) :=
      outcome_lift_eq_ok_iff.mpr ⟨hsql, rfl⟩
    rw [if_neg (by simp), outcome_bind_of_ok hbatch, outcome_bind_of_ok hlift]
    cases m.dryRun with
    | true => rfl
    | false =>
      show ((m.dispatch queries >>= _ : Action σ κ _).outcome t).2.runs = t.runs ++ _
      rw [← runs_dispatch]
      cases hd : (m.dispatch queries).outcome t with
      | mk answer v =>
        cases answer with
        | ok applied => rw [outcome_bind_of_ok hd]; rfl
        | error e => rw [outcome_bind_of_error hd]

/-- A migration that is not prepared hands over what its plan did. -/
theorem runs_migrate_of_not_prepares (h : ¬ ∃ queries t, m.Prepares schema s queries t) :
    ((m.migrate schema).outcome s).2.runs = ((m.plan schema).outcome s).2.runs := by
  unfold migrate
  cases hplan : (m.plan schema).outcome s with
  | mk planned u =>
    cases planned with
    | error e => rw [outcome_bind_of_error hplan]
    | ok operations =>
      rw [outcome_bind_of_ok hplan]
      by_cases hops : operations.isEmpty
      · rw [if_pos hops]
        rfl
      · rw [if_neg hops]
        have hstill := m.still_batch operations u
        cases hbatch : (m.batch operations).outcome u with
        | mk batched t =>
          rw [hbatch] at hstill
          cases batched with
          | error e => rw [outcome_bind_of_error hbatch, hstill]
          | ok queries =>
            rw [outcome_bind_of_ok hbatch]
            cases hsql : m.sqlFor queries with
            | ok sql => exact absurd ⟨queries, t, operations, u, sql, hplan, hbatch, hsql⟩ h
            | error e => exact hstill

variable (m) (schema) (s)

/-- **Nothing but inspections is run before everything is decided and compiled.** The plan hands the
backend inspections, and deciding adds none. A dry run, and a migration that fails before its
dispatch, leave it at that. Any other migration then hands over every batched query once, in the
order of the batch, whatever the backend answers. -/
theorem migrate_runs :
    ∃ inspected, (∀ q ∈ inspected, CompiledQuery.Inspects m.backend.dialect q) ∧
      ((m.plan schema).outcome s).2.runs = s.runs ++ inspected ∧
      (∀ operations u, (m.plan schema).outcome s = (.ok operations, u) →
        ((m.batch operations).outcome u).2.runs = s.runs ++ inspected) ∧
      (m.dryRun = true ∨ ¬ (∃ queries t, m.Prepares schema s queries t) →
        ((m.migrate schema).outcome s).2.runs = s.runs ++ inspected) ∧
      ∀ queries t, m.dryRun = false → m.Prepares schema s queries t →
        ∃ compiled, m.Compile queries compiled ∧
          ((m.migrate schema).outcome s).2.runs = s.runs ++ inspected ++ compiled := by
  obtain ⟨inspected, hplan, hinspected⟩ := m.hands_plan schema s
  have hbatch : ∀ operations u, (m.plan schema).outcome s = (.ok operations, u) →
      ((m.batch operations).outcome u).2.runs = s.runs ++ inspected := fun operations u h => by
    rw [m.still_batch operations u, ← hplan, h]
  have hprepared : ∀ queries t, m.Prepares schema s queries t → t.runs = s.runs ++ inspected := by
    rintro queries t ⟨operations, u, -, hu, ht, -⟩
    rw [← hbatch operations u hu, ht]
  refine ⟨inspected, hinspected, hplan, hbatch, fun h => ?_, fun queries t hdry h => ?_⟩
  · by_cases hp : ∃ queries t, m.Prepares schema s queries t
    · obtain ⟨queries, t, hp⟩ := hp
      have hdry : m.dryRun = true := h.resolve_right fun hn => hn ⟨queries, t, hp⟩
      rw [runs_migrate_of_prepares hp, if_pos hdry, hprepared queries t hp]
    · rw [runs_migrate_of_not_prepares hp, hplan]
  · obtain ⟨-, -, sql, -, -, hsql⟩ := id h
    obtain ⟨compiled, hcompiled, -⟩ := (sqlFor_eq_ok_iff queries).mp hsql
    refine ⟨compiled, hcompiled, ?_⟩
    rw [runs_migrate_of_prepares h, hdry, if_neg Bool.false_ne_true, hprepared queries t h,
      compiling_of_compile hcompiled]

/-- The alteration of the older posts is decided, compiled and handed over, although it fails. -/
theorem migrate_runs_of_posts :
    ∃ queries t inspected compiled,
      Posts.migrator.Prepares Posts.schemas ⟨(), (), []⟩ queries t ∧
      (∀ q ∈ inspected, CompiledQuery.Inspects .sqlite q) ∧
      Posts.migrator.Compile queries compiled ∧
      ((Posts.migrator.migrate Posts.schemas).outcome ⟨(), (), []⟩).2.runs =
        inspected ++ compiled := by
  have h : Posts.migrator.Prepares Posts.schemas ⟨(), (), []⟩ _ _ := ⟨_, _, _, rfl, rfl, rfl⟩
  obtain ⟨inspected, hinspected, -, -, -, hdispatched⟩ :=
    Posts.migrator.migrate_runs Posts.schemas ⟨(), (), []⟩
  obtain ⟨compiled, hcompiled, hruns⟩ := hdispatched _ _ rfl h
  exact ⟨_, _, inspected, compiled, h, hinspected, hcompiled, hruns⟩

end Migrator

end SchemaMigration
