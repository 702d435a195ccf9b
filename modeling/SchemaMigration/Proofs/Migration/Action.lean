import SchemaMigration.Backend.Snapshot
import SchemaMigration.Migration.Migrator
import SchemaMigration.Proofs.Description.Expansion

/-!
# What actions do

An action of a migration gives a value or fails, and leaves a situation behind in both cases.

* `outcome_bind_eq_ok_iff`: a chain of actions gives a value iff both parts give one, the second in
  the situation that the first left.
* `Hands P a`: whatever comes of `a`, it hands the backend only compiled queries with the property
  `P`. `Hands.bind` and the lemmas beside it carry the property over a chain.
* `Still a`: whatever comes of `a`, it hands the backend nothing.
-/

namespace SchemaMigration

variable {σ κ α β : Type}

namespace Action

/-- What comes of an action in a situation, and the situation that it leaves. -/
def outcome (a : Action σ κ α) (s : Situation σ κ) :
    Except MigrationError α × Situation σ κ :=
  a.run s

@[simp]
theorem outcome_pure (a : α) (s : Situation σ κ) :
    (pure a : Action σ κ α).outcome s = (.ok a, s) := rfl

/-- The second part of a chain runs in the situation that the first part left. -/
theorem outcome_bind (a : Action σ κ α) (f : α → Action σ κ β) (s : Situation σ κ) :
    (a >>= f : Action σ κ β).outcome s =
      match a.outcome s with
      | (.ok x, t) => (f x).outcome t
      | (.error e, t) => (.error e, t) := by
  show ExceptT.bindCont f (a.outcome s).1 (a.outcome s).2 = _
  obtain ⟨r, t⟩ := a.outcome s
  cases r <;> rfl

theorem outcome_bind_of_ok {a : Action σ κ α} {f : α → Action σ κ β} {s t : Situation σ κ} {x : α}
    (h : a.outcome s = (.ok x, t)) : (a >>= f : Action σ κ β).outcome s = (f x).outcome t := by
  rw [outcome_bind, h]

theorem outcome_bind_of_error {a : Action σ κ α} {f : α → Action σ κ β} {s t : Situation σ κ}
    {e : MigrationError} (h : a.outcome s = (.error e, t)) :
    (a >>= f : Action σ κ β).outcome s = (.error e, t) := by
  rw [outcome_bind, h]

/-- What comes of an action is carried over to what is made of its value. -/
theorem outcome_bind_pure (a : Action σ κ α) (f : α → β) (s : Situation σ κ) :
    (a >>= fun x => pure (f x) : Action σ κ β).outcome s =
      ((a.outcome s).1.map f, (a.outcome s).2) := by
  rw [outcome_bind]
  obtain ⟨r, t⟩ := a.outcome s
  cases r <;> rfl

/-- A chain gives a value iff both of its parts do. -/
theorem outcome_bind_eq_ok_iff {a : Action σ κ α} {f : α → Action σ κ β} {s u : Situation σ κ}
    {y : β} :
    (a >>= f : Action σ κ β).outcome s = (.ok y, u) ↔
      ∃ x t, a.outcome s = (.ok x, t) ∧ (f x).outcome t = (.ok y, u) := by
  cases h : a.outcome s with
  | mk r t =>
    cases r with
    | error e =>
      rw [outcome_bind_of_error h]
      simp
    | ok x =>
      rw [outcome_bind_of_ok h]
      simp [and_assoc]

theorem fst_outcome_eq_ok_iff {a : Action σ κ α} {s : Situation σ κ} {x : α} :
    (a.outcome s).1 = .ok x ↔ ∃ t, a.outcome s = (.ok x, t) :=
  ⟨fun h => ⟨_, Prod.ext h rfl⟩, fun ⟨_, h⟩ => congrArg Prod.fst h⟩

theorem outcome_lift_eq_ok_iff {r : Except Error α} {s t : Situation σ κ} {x : α} :
    (Migrator.lift r : Action σ κ α).outcome s = (.ok x, t) ↔ r = .ok x ∧ s = t := by
  cases r with
  | error e =>
    show ((Except.error (MigrationError.query e) : Except MigrationError α), s) = (.ok x, t) ↔ _
    simp
  | ok a =>
    show ((Except.ok a : Except MigrationError α), s) = (.ok x, t) ↔ _
    simp

/-! ## Queries handed to the backend -/

/-- Whatever comes of the action, the compiled queries that it hands to the backend have a
property. -/
def Hands (P : CompiledQuery → Prop) (a : Action σ κ α) : Prop :=
  ∀ s, ∃ handed, (a.outcome s).2.runs = s.runs ++ handed ∧ ∀ q ∈ handed, P q

/-- Whatever comes of the action, it hands no query to the backend. -/
def Still (a : Action σ κ α) : Prop :=
  ∀ s, (a.outcome s).2.runs = s.runs

variable {P : CompiledQuery → Prop}

theorem Still.hands {a : Action σ κ α} (h : a.Still) : a.Hands P := fun s =>
  ⟨[], by rw [h s, List.append_nil], fun _ hq => absurd hq List.not_mem_nil⟩

theorem Hands.bind {a : Action σ κ α} {f : α → Action σ κ β} (ha : a.Hands P)
    (hf : ∀ x, (f x).Hands P) : (a >>= f : Action σ κ β).Hands P := by
  intro s
  obtain ⟨handed, hruns, hP⟩ := ha s
  cases h : a.outcome s with
  | mk r t =>
    rw [h] at hruns
    cases r with
    | error e =>
      rw [outcome_bind_of_error h]
      exact ⟨handed, hruns, hP⟩
    | ok x =>
      rw [outcome_bind_of_ok h]
      obtain ⟨handed', hruns', hP'⟩ := hf x t
      refine ⟨handed ++ handed', by rw [hruns', hruns, List.append_assoc], fun q hq => ?_⟩
      rcases List.mem_append.mp hq with hq | hq
      · exact hP q hq
      · exact hP' q hq

theorem Still.bind {a : Action σ κ α} {f : α → Action σ κ β} (ha : a.Still)
    (hf : ∀ x, (f x).Still) : (a >>= f : Action σ κ β).Still := by
  intro s
  cases h : a.outcome s with
  | mk r t =>
    have ht : t.runs = s.runs := by
      have := ha s
      rwa [h] at this
    cases r with
    | error e => rw [outcome_bind_of_error h, ht]
    | ok x => rw [outcome_bind_of_ok h, hf x t, ht]

theorem still_pure (x : α) : (pure x : Action σ κ α).Still := fun _ => rfl

theorem still_throw (e : MigrationError) : (throw e : Action σ κ α).Still := fun _ => rfl

theorem still_lift (r : Except Error α) : (Migrator.lift r : Action σ κ α).Still := by
  cases r with
  | error e => exact still_throw _
  | ok x => exact still_pure x

end Action

/-! ## An example -/

namespace Posts

/-- The declaration of posts in English and French. -/
def schemas : LogicalSchema := ⟨[schema], ["en", "fr"]⟩

/-- A migrator of the older posts that takes every default, on a backend that answers but refuses
changes. -/
def migrator : Migrator Unit Unit :=
  ⟨(Snapshot.mk .sqlite [live] [collection.identity]).backend, .defaults, none, false⟩

end Posts

end SchemaMigration
