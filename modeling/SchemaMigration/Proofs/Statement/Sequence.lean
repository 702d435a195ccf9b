import SchemaMigration.Proofs.Statement.Trace

/-!
# Alterations one after the other

An alteration is a sequence: it can be cut at any step into two alterations, the second of which
starts on the collection as the first one named it last. What the whole compiles to is what both
parts compile to, one after the other, and it fails as its first step that fails.

About `compile_alter`.

* `AlterCollection.lastNamed`: the collection that the last renaming names.
* `ddlOfSteps_append`: the statements of two parts, by induction on the first.
* `ddlOfSteps_eq_error_iff`: how a sequence of steps fails, by induction on the steps.
* **`AlterCollection.compile_append`**: when a whole alteration compiles, what it compiles to, and
  how it fails.
-/

namespace SchemaMigration

/-- The collection that a step renames the altered one to. -/
def AlterStep.target? : AlterStep → Option CollectionRef
  | .rename target => some target
  | _ => none

namespace AlterCollection

variable {d : Dialect} {vars : Variables} {table : CollectionRef}

/-- The collection that the last renaming among the steps names, or the one they start on. -/
def lastNamed (table : CollectionRef) (steps : List AlterStep) : CollectionRef :=
  (steps.filterMap AlterStep.target?).getLast?.getD table

/-- Each step hands on the table that the renamings up to it name last. -/
theorem tableAfter_eq_lastNamed (table : CollectionRef) (steps : List AlterStep) :
    tableAfter table steps = lastNamed table steps := by
  induction steps generalizing table with
  | nil => rfl
  | cons step rest ih =>
    show tableAfter (step.tableAfter table) rest = _
    rw [ih]
    cases step with
    | rename target =>
      show _ = ((target :: rest.filterMap AlterStep.target?).getLast?).getD table
      rw [List.getLast?_cons]
      rfl
    | _ => rfl

theorem tableAfter_cons (step : AlterStep) (rest : List AlterStep) :
    tableAfter table (step :: rest) = tableAfter (step.tableAfter table) rest :=
  rfl

/-! ## Statements of a sequence -/

/-- **The steps of two parts** give the statements of the first and then those of the second, which
starts on the table that the first one leaves. -/
theorem ddlOfSteps_append (table : CollectionRef) (a b : List AlterStep) :
    ddlOfSteps d table (a ++ b) = do
      let first ← ddlOfSteps d table a
      let second ← ddlOfSteps d (tableAfter table a) b
      return first ++ second := by
  induction a generalizing table with
  | nil =>
    show _ = (ddlOfSteps d table b >>= fun second => pure ([] ++ second))
    simp
  | cons step rest ih =>
    rw [List.cons_append, ddlOfSteps, ddlOfSteps, ih, tableAfter_cons]
    simp only [bind_assoc, pure_bind, List.append_assoc]

theorem ddlOfSteps_append_eq_ok_iff {a b : List AlterStep} {ds : List Ddl} :
    ddlOfSteps d table (a ++ b) = .ok ds ↔
      ∃ first second, ddlOfSteps d table a = .ok first ∧
        ddlOfSteps d (tableAfter table a) b = .ok second ∧ first ++ second = ds := by
  rw [ddlOfSteps_append]
  simp only [bind_eq_ok_iff, pure, Except.pure, Except.ok.injEq, exists_and_left]

/-- **A sequence fails as its first failing step**, on the table that the steps before it leave, by
induction on the steps. -/
theorem ddlOfSteps_eq_error_iff {steps : List AlterStep} {e : Error} :
    ddlOfSteps d table steps = .error e ↔
      ∃ before step after, steps = before ++ step :: after ∧
        (∃ ds, ddlOfSteps d table before = .ok ds) ∧
          ddlOfSteps d (tableAfter table before) [step] = .error e := by
  constructor
  · induction steps generalizing table with
    | nil => exact nofun
    | cons step rest ih =>
      intro h
      rw [← List.singleton_append, ddlOfSteps_append] at h
      rcases bind_eq_error_iff.mp h with hstep | ⟨first, hfirst, h⟩
      · exact ⟨[], step, rest, rfl, ⟨[], rfl⟩, hstep⟩
      · rcases bind_eq_error_iff.mp h with hrest | ⟨second, -, h⟩
        · obtain ⟨before, last, after, rfl, ⟨more, hmore⟩, hlast⟩ := ih hrest
          refine ⟨step :: before, last, after, rfl, ⟨first ++ more, ?_⟩, hlast⟩
          exact ddlOfSteps_append_eq_ok_iff.mpr ⟨first, more, hfirst, hmore, rfl⟩
        · cases h
  · rintro ⟨before, step, after, rfl, ⟨ds, hds⟩, hstep⟩
    rw [ddlOfSteps_append, ← List.singleton_append, ddlOfSteps_append, hds, hstep]
    rfl

/-! ## Compiled alterations -/

theorem compile_eq_error_iff {q : AlterCollection} {e : Error} :
    (Query.alterCollection q).compile d vars = .error e ↔ q.ddl d = .error e := by
  have hstatements : (Query.alterCollection q).compile d vars = .error e ↔
      (Query.alterCollection q).statements d vars = .error e := by
    refine bind_eq_error_iff.trans (or_iff_left ?_)
    rintro ⟨ss, -, h⟩
    cases h
  exact hstatements.trans map_eq_error_iff

theorem exists_compile_ok_iff {q : AlterCollection} :
    (∃ cq, (Query.alterCollection q).compile d vars = .ok cq) ↔ ∃ ds, q.ddl d = .ok ds := by
  constructor
  · rintro ⟨cq, hcq⟩
    obtain ⟨ds, hds, -⟩ := exists_compile_ddl_iff.mp ⟨cq, hcq, rfl⟩
    exact ⟨ds, hds⟩
  · rintro ⟨ds, hds⟩
    obtain ⟨cq, hcq, -⟩ := exists_compile_ddl_iff.mpr ⟨ds, hds, rfl⟩
    exact ⟨cq, hcq⟩

/-- The statements of an alteration cut in two. -/
theorem exists_compile_append_iff {c : CollectionRef} {first second : List AlterStep}
    {ss : List Statement} :
    (∃ cq, (Query.alterCollection ⟨c, first ++ second⟩).compile d vars = .ok cq ∧
        cq.statements = ss) ↔
      ∃ cq cq', (Query.alterCollection ⟨c, first⟩).compile d vars = .ok cq ∧
        (Query.alterCollection ⟨lastNamed c first, second⟩).compile d vars = .ok cq' ∧
          cq.statements ++ cq'.statements = ss := by
  constructor
  · intro h
    obtain ⟨ds, hds, rfl⟩ := exists_compile_ddl_iff.mp h
    obtain ⟨as, bs, has, hbs, rfl⟩ := ddlOfSteps_append_eq_ok_iff.mp hds
    rw [tableAfter_eq_lastNamed] at hbs
    obtain ⟨cq, hcq, htext⟩ := exists_compile_ddl_iff (q := ⟨c, first⟩) |>.mpr ⟨as, has, rfl⟩
    obtain ⟨cq', hcq', htext'⟩ :=
      exists_compile_ddl_iff (q := ⟨lastNamed c first, second⟩) |>.mpr ⟨bs, hbs, rfl⟩
    exact ⟨cq, cq', hcq, hcq', by rw [htext, htext', List.map_append]⟩
  · rintro ⟨cq, cq', hcq, hcq', rfl⟩
    obtain ⟨as, has, htext⟩ := exists_compile_ddl_iff.mp ⟨cq, hcq, rfl⟩
    obtain ⟨bs, hbs, htext'⟩ := exists_compile_ddl_iff.mp ⟨cq', hcq', rfl⟩
    rw [AlterCollection.ddl, ← tableAfter_eq_lastNamed] at hbs
    refine exists_compile_ddl_iff.mpr ⟨as ++ bs, ?_, by rw [htext, htext', List.map_append]⟩
    exact ddlOfSteps_append_eq_ok_iff.mpr ⟨as, bs, has, hbs, rfl⟩

/-- **Compiling an alteration goes from left to right**: cut anywhere, it compiles iff its first
part does and its second part does on the collection that the first one names last; its statements
are those of the two parts, one after the other; and it fails as its first step that fails, the
steps before it having compiled. -/
theorem compile_append (d : Dialect) (vars : Variables) (c : CollectionRef)
    (first second : List AlterStep) :
    ((∃ cq, (Query.alterCollection ⟨c, first ++ second⟩).compile d vars = .ok cq) ↔
      (∃ cq, (Query.alterCollection ⟨c, first⟩).compile d vars = .ok cq) ∧
        ∃ cq, (Query.alterCollection ⟨lastNamed c first, second⟩).compile d vars = .ok cq) ∧
    (∀ ss, (∃ cq, (Query.alterCollection ⟨c, first ++ second⟩).compile d vars = .ok cq ∧
        cq.statements = ss) ↔
      ∃ cq cq', (Query.alterCollection ⟨c, first⟩).compile d vars = .ok cq ∧
        (Query.alterCollection ⟨lastNamed c first, second⟩).compile d vars = .ok cq' ∧
          cq.statements ++ cq'.statements = ss) ∧
    ∀ e, (Query.alterCollection ⟨c, first ++ second⟩).compile d vars = .error e ↔
      ∃ before step after, first ++ second = before ++ step :: after ∧
        (∃ cq, (Query.alterCollection ⟨c, before⟩).compile d vars = .ok cq) ∧
          (Query.alterCollection ⟨lastNamed c before, [step]⟩).compile d vars = .error e := by
  refine ⟨⟨?_, ?_⟩, fun ss => exists_compile_append_iff, fun e => ?_⟩
  · rintro ⟨cq, hcq⟩
    obtain ⟨as, bs, has, hbs, -⟩ := exists_compile_append_iff.mp ⟨cq, hcq, rfl⟩
    exact ⟨⟨as, has⟩, bs, hbs⟩
  · rintro ⟨⟨as, has⟩, bs, hbs⟩
    obtain ⟨cq, hcq, -⟩ := exists_compile_append_iff.mpr ⟨as, bs, has, hbs, rfl⟩
    exact ⟨cq, hcq⟩
  · simp only [compile_eq_error_iff, exists_compile_ok_iff, AlterCollection.ddl,
      ← tableAfter_eq_lastNamed]
    exact ddlOfSteps_eq_error_iff

end AlterCollection

end SchemaMigration
