import SchemaMigration.Proofs.Migration.Runs

/-!
# What a dispatch reports

A dispatch executes every query of a list, and reports afterwards how that went. A query may fail
because it does not compile, and then it is not run, or because the backend fails it.

About `dispatch`.

* `Backend.getElem?_executeAll`: what a query is answered depends on those before it by the state of
  the backend only, not by whether they failed.
* `Backend.exists_executeAll_scripted`: any of the queries may fail, in any combination.
* **`dispatch_accounts`**: a dispatch succeeds iff every query does. A single failure stands for
  itself, and several are reported together, one for every query that failed, in the order of the
  queries.
-/

namespace SchemaMigration

namespace Backend

variable {σ : Type} (b : Backend σ)

/-! ## The answers -/

theorem length_executeAll : ∀ (queries : List Query) (s : σ),
    (b.executeAll queries s).1.length = queries.length
  | [], _ => rfl
  | q :: r, s => by
    rw [executeAll_cons, List.length_cons, List.length_cons, length_executeAll r]

/-- A query is answered in the state that those before it left, however they ended. -/
theorem getElem?_executeAll : ∀ (queries : List Query) (s : σ) (i : Fin queries.length),
    (b.executeAll queries s).1[i.val]? =
      some (b.execute [] queries[i] (b.executeAll (queries.take i) s).2).1
  | _ :: _, _, ⟨0, _⟩ => rfl
  | q :: r, s, ⟨i + 1, h⟩ =>
    getElem?_executeAll r (b.execute [] q s).2 ⟨i, Nat.lt_of_succ_lt_succ h⟩

/-- A backend that takes its answers from a script, one for every query that it is handed, and
acknowledges what comes after the end of the script. -/
def scripted (d : Dialect) : Backend (List (Except Error QueryResult)) :=
  ⟨d, fun _ script => (script.headD (.ok (.acknowledged true)), script.tail)⟩

/-- Whatever answers are thought of for queries, as long as a query that does not compile fails with
that, some backend gives them. -/
theorem exists_executeAll_scripted {d : Dialect} {queries : List Query}
    {answers : List (Except Error QueryResult)}
    (h : List.Forall₂ (fun q answer => ∀ e, q.compile d [] = .error e → answer = .error e) queries
      answers) : ∃ script, (scripted d).executeAll queries script = (answers, []) := by
  induction h with
  | nil => exact ⟨[], rfl⟩
  | @cons q answer r answers hq _ ih =>
    obtain ⟨script, hscript⟩ := ih
    cases hcompile : q.compile d [] with
    | error e =>
      refine ⟨script, ?_⟩
      have hexecute : (scripted d).execute [] q script = (.error e, script) := by
        rw [execute, show q.compile (scripted d).dialect [] = _ from hcompile]
      rw [executeAll_cons, hexecute, hscript, hq e hcompile]
    | ok compiled =>
      refine ⟨answer :: script, ?_⟩
      have hexecute : (scripted d).execute [] q (answer :: script) = (answer, script) := by
        rw [execute, show q.compile (scripted d).dialect [] = _ from hcompile]
        rfl
      rw [executeAll_cons, hexecute, hscript]

end Backend

/-! ## The report -/

namespace Migrator

open SchemaMigration.Action

variable {σ κ : Type} (m : Migrator σ κ)

/-- **A dispatch accounts for every query.** Every query is executed once, in the order of the list,
whatever comes of the others: those that compile are handed over. If none fails the number of the
queries is reported, if one fails its failure, and if several fail all the failures, in order. -/
theorem dispatch_accounts (queries : List Query) (s : Situation σ κ) :
    ∃ answers failures state report,
      m.backend.executeAll queries s.backend = (answers, state) ∧
      answers.length = queries.length ∧
      (∀ i : Fin queries.length, answers[i.val]? =
        some (m.backend.execute [] queries[i]
          (m.backend.executeAll (queries.take i) s.backend).2).1) ∧
      answers.filterMap failure? = failures ∧
      (m.dispatch queries).outcome s =
        (report, ⟨state, s.chooser, s.runs ++ m.compiling queries⟩) ∧
      (∀ n, report = .ok n ↔ failures = [] ∧ n = queries.length) ∧
      ∀ e, report = .error e ↔
        (∃ f, failures = [f] ∧ e = .query f) ∨
          2 ≤ failures.length ∧ e = .several (failures.map .query) := by
  refine ⟨_, _, _, _, rfl, m.backend.length_executeAll queries _,
    m.backend.getElem?_executeAll queries _, rfl, m.outcome_dispatch queries s,
    fun n => ?_, fun e => ?_⟩
  -- the report is one of three, by the number of failures
  all_goals
    generalize (m.backend.executeAll queries s.backend).1.filterMap failure? = failures
    match failures with
    | [] => simp [MigrationError.ofFailures?, eq_comm]
    | [f] => simp [MigrationError.ofFailures?, eq_comm]
    | f :: f' :: r => simp [MigrationError.ofFailures?, eq_comm]

end Migrator

end SchemaMigration
