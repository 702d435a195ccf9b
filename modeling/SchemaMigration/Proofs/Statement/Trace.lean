import SchemaMigration.Proofs.Statement.Structural

/-!
# Steps beside their statements

An alteration compiles step by step: every step writes its statements on the table as the renamings
before it left it, and the statements of the alteration are those of its steps, one after the other.

* `AlterCollection.IsTrace`: the steps beside their statements, told from what the first steps
  compile to; `AlterCollection.Emits`: every step makes its own statements.
* `emits_append_iff`: a trace is cut at any step, the rest starting on the table there.
* **`exists_compile_iff`**: an alteration compiles iff its steps have a trace.
* **`isTrace_iff_emits`**: both descriptions of a trace agree.
-/

namespace SchemaMigration

/-- A structural statement with its text. -/
def Ddl.statement (d : Dialect) (s : Ddl) : Statement :=
  Statement.ofPieces d (s.pieces d)

/-- Steps, each with its statements. -/
abbrev AlterTrace : Type := List (AlterStep × List Statement)

namespace AlterCollection

variable {d : Dialect} {vars : Variables} {table : CollectionRef} {q : AlterCollection}

/-- The steps of an alteration beside their statements: the steps up to any point compile to the
statements beside them. -/
structure IsTrace (d : Dialect) (vars : Variables) (q : AlterCollection) (trace : AlterTrace) :
    Prop where
  /-- The steps are those of the alteration. -/
  steps : trace.map Prod.fst = q.steps
  /-- The first steps compile to the statements beside them. -/
  compiled : ∀ before after, trace = before ++ after →
    ∃ cq, (Query.alterCollection ⟨q.collection, before.map Prod.fst⟩).compile d vars = .ok cq ∧
      cq.statements = before.flatMap Prod.snd

/-- Every statement of the trace is made by its own step, on the table as the renamings before the
step left it. -/
def Emits (d : Dialect) (table : CollectionRef) : AlterTrace → Prop
  | [] => True
  | (step, ss) :: r =>
    (step.misuse? = none ∧ ∃ ds, step.ddl d table = .ok ds ∧ ss = ds.map (Ddl.statement d)) ∧
      Emits d (step.tableAfter table) r

theorem emits_append_iff {a b : AlterTrace} :
    Emits d table (a ++ b) ↔ Emits d table a ∧ Emits d (tableAfter table (a.map Prod.fst)) b := by
  induction a generalizing table with
  | nil => simp [Emits, tableAfter]
  | cons entry a ih =>
    obtain ⟨step, ss⟩ := entry
    show (_ ∧ Emits d (step.tableAfter table) (a ++ b)) ↔
      (_ ∧ Emits d (step.tableAfter table) a) ∧
        Emits d (tableAfter (step.tableAfter table) (a.map Prod.fst)) b
    rw [ih]
    exact and_assoc.symm

/-- Steps give statements iff some trace of them does. -/
theorem ddlOfSteps_eq_ok_iff {steps : List AlterStep} {ss : List Statement} :
    (∃ ds, ddlOfSteps d table steps = .ok ds ∧ ss = ds.map (Ddl.statement d)) ↔
      ∃ trace : AlterTrace, trace.map Prod.fst = steps ∧ Emits d table trace ∧
        ss = trace.flatMap Prod.snd := by
  induction steps generalizing table ss with
  | nil =>
    constructor
    · rintro ⟨ds, h, rfl⟩
      cases h
      exact ⟨[], rfl, trivial, rfl⟩
    · rintro ⟨trace, htrace, -, rfl⟩
      rw [List.map_eq_nil_iff.mp htrace]
      exact ⟨[], rfl, rfl⟩
  | cons step rest ih =>
    constructor
    · rintro ⟨ds, h, rfl⟩
      obtain ⟨⟨⟩, hcheck, h⟩ := bind_eq_ok_iff.mp h
      obtain ⟨first, hfirst, h⟩ := bind_eq_ok_iff.mp h
      obtain ⟨more, hmore, h⟩ := bind_eq_ok_iff.mp h
      cases h
      obtain ⟨trace, hsteps, hemits, htext⟩ := ih.mp ⟨more, hmore, rfl⟩
      refine ⟨(step, first.map (Ddl.statement d)) :: trace, by rw [List.map_cons, hsteps], ?_, ?_⟩
      · exact ⟨⟨AlterStep.check_mapError_eq_ok_iff.mp hcheck, first, hfirst, rfl⟩, hemits⟩
      · rw [List.map_append, List.flatMap_cons, htext]
    · rintro ⟨trace, hsteps, hemits, rfl⟩
      obtain ⟨⟨step, ss⟩, trace, rfl, rfl, hrest⟩ := List.map_eq_cons_iff.mp hsteps
      obtain ⟨⟨hcheck, first, hfirst, rfl⟩, hemits⟩ := hemits
      obtain ⟨more, hmore, htext⟩ := ih.mpr ⟨trace, hrest, hemits, rfl⟩
      refine ⟨first ++ more, ?_, by rw [List.map_append, List.flatMap_cons, htext]⟩
      refine bind_eq_ok_iff.mpr ⟨(), AlterStep.check_mapError_eq_ok_iff.mpr hcheck, ?_⟩
      refine bind_eq_ok_iff.mpr ⟨first, hfirst, ?_⟩
      exact bind_eq_ok_iff.mpr ⟨more, hmore, rfl⟩

/-- An alteration compiles to the texts of its structural statements. -/
theorem exists_compile_ddl_iff {ss : List Statement} :
    (∃ cq, (Query.alterCollection q).compile d vars = .ok cq ∧ cq.statements = ss) ↔
      ∃ ds, q.ddl d = .ok ds ∧ ss = ds.map (Ddl.statement d) := by
  constructor
  · rintro ⟨cq, h, rfl⟩
    obtain ⟨ss, hss, h⟩ := bind_eq_ok_iff.mp h
    cases h
    obtain ⟨ds, hds, rfl⟩ := map_eq_ok_iff.mp hss
    exact ⟨ds, hds, rfl⟩
  · rintro ⟨ds, hds, rfl⟩
    exact ⟨_, bind_eq_ok_iff.mpr ⟨_, map_eq_ok_iff.mpr ⟨ds, hds, rfl⟩, rfl⟩, rfl⟩

/-- An alteration compiles iff some trace of its steps makes its statements. -/
theorem exists_compile_iff {ss : List Statement} :
    (∃ cq, (Query.alterCollection q).compile d vars = .ok cq ∧ cq.statements = ss) ↔
      ∃ trace : AlterTrace, trace.map Prod.fst = q.steps ∧ Emits d q.collection trace ∧
        ss = trace.flatMap Prod.snd :=
  exists_compile_ddl_iff.trans ddlOfSteps_eq_ok_iff

/-- A table and the steps on it determine the trace. -/
theorem Emits.eq {a b : AlterTrace} (ha : Emits d table a) (hb : Emits d table b)
    (h : a.map Prod.fst = b.map Prod.fst) : a = b := by
  induction a generalizing table b with
  | nil => exact (List.map_eq_nil_iff.mp h.symm).symm
  | cons entry a ih =>
    obtain ⟨entry', b, rfl, hstep, hrest⟩ := List.map_eq_cons_iff.mp h.symm
    obtain ⟨step, ss⟩ := entry
    obtain ⟨step', ss'⟩ := entry'
    obtain rfl : step' = step := hstep
    obtain ⟨⟨-, ds, hds, rfl⟩, ha⟩ := ha
    obtain ⟨⟨-, ds', hds', rfl⟩, hb⟩ := hb
    obtain rfl : ds' = ds := Except.ok.inj (hds'.symm.trans hds)
    rw [ih ha hb hrest.symm]

/-- The steps beside their statements are those that each step makes on its own table. -/
theorem isTrace_iff_emits {trace : AlterTrace} :
    q.IsTrace d vars trace ↔ trace.map Prod.fst = q.steps ∧ Emits d q.collection trace := by
  constructor
  · rintro ⟨hsteps, hcompiled⟩
    refine ⟨hsteps, ?_⟩
    clear hsteps
    -- from the end: what the last step adds is what the whole has beyond the steps before it
    induction trace using List.reverseRecOn with
    | nil => trivial
    | append_singleton trace entry ih =>
      have hbefore : Emits d q.collection trace :=
        ih fun before after h => hcompiled before (after ++ [entry]) (by rw [h, List.append_assoc])
      obtain ⟨trace', hsteps, hemits, htext⟩ := exists_compile_iff.mp
        (hcompiled (trace ++ [entry]) [] (List.append_nil _).symm)
      rw [List.map_append] at hsteps
      obtain ⟨init, last, rfl, hinit, hlast⟩ := List.map_eq_append_iff.mp hsteps
      have hsame : init = trace := Emits.eq (emits_append_iff.mp hemits).1 hbefore hinit
      obtain ⟨⟨step, ss⟩, rfl, hstep⟩ := List.map_eq_singleton_iff.mp hlast
      subst hsame
      rw [List.flatMap_append, List.flatMap_append, List.append_right_inj] at htext
      have hentry : entry = (step, ss) := Prod.ext hstep.symm (by simpa using htext)
      rwa [hentry]
  · rintro ⟨hsteps, hemits⟩
    refine ⟨hsteps, ?_⟩
    rintro before after rfl
    exact exists_compile_iff.mpr ⟨before, rfl, (emits_append_iff.mp hemits).1, rfl⟩

/-- A step has its place in the trace. -/
theorem exists_cut {trace : AlterTrace} {before after : List AlterStep} {step : AlterStep}
    (h : trace.map Prod.fst = before ++ step :: after) :
    ∃ first ss last, trace = first ++ (step, ss) :: last ∧ first.map Prod.fst = before := by
  obtain ⟨first, rest, rfl, hfirst, hrest⟩ := List.map_eq_append_iff.mp h
  obtain ⟨⟨_, ss⟩, last, rfl, rfl, -⟩ := List.map_eq_cons_iff.mp hrest
  exact ⟨first, ss, last, rfl, hfirst⟩

end AlterCollection

end SchemaMigration
