import SchemaMigration.Proofs.Migration.Runs

/-!
# Actions that go alike

Two migrations can be told apart only by what their backends and choosers answer. As long as those
answer alike, the migrations do the same.

* `Alike R a a'`: in situations that are related by `R` the actions give the same result, and leave
  related situations behind. `Alike.bind` and the lemmas beside it carry this over a chain.
* `alike_batch`: batches go alike if prompts are answered alike.
* `alike_plan`: plans go alike if inspections are answered alike.
-/

namespace SchemaMigration

variable {σ σ' κ κ' α β : Type} {R : Situation σ κ → Situation σ' κ' → Prop}

namespace Action

/-- In related situations the actions give the same result, and leave related situations. -/
def Alike (R : Situation σ κ → Situation σ' κ' → Prop) (a : Action σ κ α) (a' : Action σ' κ' α) :
    Prop :=
  ∀ s s', R s s' → (a.outcome s).1 = (a'.outcome s').1 ∧ R (a.outcome s).2 (a'.outcome s').2

theorem alike_pure (x : α) : Alike R (pure x) (pure x) := fun _ _ h => ⟨rfl, h⟩

theorem alike_throw (e : MigrationError) : Alike R (throw e : Action σ κ α) (throw e) :=
  fun _ _ h => ⟨rfl, h⟩

theorem alike_lift (r : Except Error α) : Alike R (Migrator.lift r) (Migrator.lift r) := by
  cases r with
  | error e => exact alike_throw _
  | ok x => exact alike_pure x

theorem Alike.bind {a : Action σ κ α} {a' : Action σ' κ' α} {f : α → Action σ κ β}
    {f' : α → Action σ' κ' β} (ha : Alike R a a') (hf : ∀ x, Alike R (f x) (f' x)) :
    Alike R (a >>= f) (a' >>= f') := by
  intro s s' h
  obtain ⟨hr, ht⟩ := ha s s' h
  cases e : a.outcome s with
  | mk r t =>
    cases e' : a'.outcome s' with
    | mk r' t' =>
      rw [e, e'] at hr ht
      obtain rfl : r = r' := hr
      cases r with
      | error err =>
        rw [outcome_bind_of_error e, outcome_bind_of_error e']
        exact ⟨rfl, ht⟩
      | ok x =>
        rw [outcome_bind_of_ok e, outcome_bind_of_ok e']
        exact hf x t t' ht

/-- Actions that go alike leave related situations where they give a value. -/
theorem Alike.of_ok {a : Action σ κ α} {a' : Action σ' κ' α} {s t : Situation σ κ}
    {s' : Situation σ' κ'} {x : α} (h : Alike R a a') (hs : R s s')
    (ha : a.outcome s = (.ok x, t)) : ∃ t', a'.outcome s' = (.ok x, t') ∧ R t t' := by
  obtain ⟨hr, ht⟩ := h s s' hs
  rw [ha] at hr ht
  exact ⟨(a'.outcome s').2, Prod.ext hr.symm rfl, ht⟩

end Action

namespace Migrator

open SchemaMigration.Action

variable {m : Migrator σ κ} {m' : Migrator σ' κ'}

/-! ## Deciding -/

section Deciding

variable (hput : ∀ prompt choices, Alike R (m.put prompt choices) (m'.put prompt choices))

include hput

theorem alike_ask (c : CollectionRef) (prompt : String) (choices : List Choice) :
    Alike R (m.ask c prompt choices) (m'.ask c prompt choices) := by
  refine (hput prompt choices).bind fun answer => ?_
  cases answer with
  | none => exact alike_throw _
  | some key =>
    by_cases h : offers choices key
    · simp only [if_pos h]
      exact alike_pure key
    · simp only [if_neg h]
      exact alike_throw _

theorem alike_consult (op : DiffOperation) : Alike R (m.consult op) (m'.consult op) := by
  unfold consult
  cases op.prompt? with
  | none => exact alike_pure _
  | some p => exact (alike_ask hput _ _ _).bind fun _ => alike_pure _

theorem alike_decide (op : DiffOperation) : Alike R (m.decide op) (m'.decide op) := by
  refine (alike_consult hput op).bind fun answer => ?_
  cases settle op answer with
  | ok d => exact alike_pure d
  | error e => exact alike_throw e

theorem alike_decideAll : ∀ ops : List DiffOperation, Alike R (m.decideAll ops) (m'.decideAll ops)
  | [] => alike_pure _
  | op :: r => (alike_decide hput op).bind fun _ => (alike_decideAll r).bind fun _ => alike_pure _

theorem alike_batch (ops : List DiffOperation) : Alike R (m.batch ops) (m'.batch ops) :=
  (alike_decideAll hput ops).bind fun _ => alike_lift _

end Deciding

/-! ## Planning -/

section Planning

variable (hdialect : m'.backend.dialect = m.backend.dialect)
  (hrun : ∀ q : CompiledQuery, q.Inspects m.backend.dialect → Alike R (m.run q) (m'.run q))

include hdialect hrun

/-- A query that compiles to an inspection is executed alike. -/
theorem alike_execute {q : Query}
    (hq : ∀ c, q.compile m.backend.dialect [] = .ok c → c.Inspects m.backend.dialect) :
    Alike R (m.execute q) (m'.execute q) := by
  unfold execute
  rw [hdialect]
  cases h : q.compile m.backend.dialect [] with
  | error e => exact alike_throw _
  | ok c => exact hrun c (hq c h)

theorem alike_describeLive (c : CollectionRef) (locales : List String) :
    Alike R (m.describeLive c locales) (m'.describeLive c locales) := by
  refine (alike_execute hdialect hrun fun q hq => ⟨c, Or.inl hq⟩).bind fun answer =>
    (alike_lift _).bind fun found => ?_
  cases found with
  | false => exact alike_pure _
  | true =>
    exact (alike_execute hdialect hrun fun q hq => ⟨c, Or.inr hq⟩).bind fun answer =>
      (alike_lift _).bind fun live => alike_pure _

theorem alike_planCollection (locales : List String) (c : CollectionSchema) :
    Alike R (m.planCollection locales c) (m'.planCollection locales c) := by
  unfold planCollection
  rw [hdialect]
  exact (alike_lift _).bind fun _ =>
    (alike_describeLive hdialect hrun _ locales).bind fun _ => alike_pure _

theorem alike_planAll (locales : List String) : ∀ cs : List CollectionSchema,
    Alike R (m.planAll locales cs) (m'.planAll locales cs)
  | [] => alike_pure _
  | c :: r => (alike_planCollection hdialect hrun locales c).bind fun _ =>
      (alike_planAll locales r).bind fun _ => alike_pure _

/-- Plans for the same locales go alike. -/
theorem alike_plan (hlocales : m'.locales = m.locales) (schema : LogicalSchema) :
    Alike R (m.plan schema) (m'.plan schema) := by
  unfold plan
  rw [hlocales]
  exact alike_planAll hdialect hrun _ _

end Planning

end Migrator

end SchemaMigration
