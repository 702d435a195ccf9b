import Mathlib.Tactic.ByContra
import SchemaMigration.Column
import SchemaMigration.Index

/-!
# What the checks of columns and indexes accept

A check finds the first thing that is wrong. What it accepts has nothing wrong with it, and this is
told here part by part, so that no other proof has to follow the order in which faults are found.

* `Column.misuse?_eq_none_iff`, `Column.check_eq_ok_iff`: columns that are well formed.
* `Index.misuse?_eq_none_iff`, `Index.check_eq_ok_iff`: indexes that are well formed.
-/

namespace SchemaMigration

namespace Column

variable {c : Column}

theorem check_eq_ok_iff : c.check = .ok () ↔ c.misuse? = none := by
  unfold check
  cases c.misuse? <;> simp

/-- A column is well formed iff its name is and its attributes go with its type. -/
theorem misuse?_eq_none_iff :
    c.misuse? = none ↔ Identifier.misuse? c.name = none ∧ c.typeMisuse? = none := by
  unfold misuse?
  cases Identifier.misuse? c.name <;> simp

theorem misuse?_name (h : c.misuse? = none) : Identifier.misuse? c.name = none :=
  (misuse?_eq_none_iff.mp h).1

/-- A column that counts up is of an integer type. -/
theorem isInteger_of_autoIncrement (h : c.misuse? = none) (hcounts : c.autoIncrement = true) :
    c.type.isInteger = true := by
  by_contra hinteger
  have htype := (misuse?_eq_none_iff.mp h).2
  rw [typeMisuse?, hcounts, eq_false_of_ne_true hinteger] at htype
  cases htype

theorem isSized_of_misuse? (h : c.misuse? = none) :
    c.size.isSome = true → c.type.isSized = true := by
  intro hsize
  by_contra hsized
  have htype := (misuse?_eq_none_iff.mp h).2
  rw [typeMisuse?] at htype
  split at htype
  · cases htype
  · simp [hsize, eq_false_of_ne_true hsized] at htype

end Column

namespace Index

variable {i : Index}

theorem check_eq_ok_iff : i.check = .ok () ↔ i.misuse? = none := by
  unfold check
  cases i.misuse? <;> simp

/-- An index is well formed iff its name is, it has the reserved name just if it is the primary one,
and it covers well-formed fields, at least one. -/
theorem misuse?_eq_none_iff : i.misuse? = none ↔
    Identifier.misuse? i.name = none ∧ i.isPrimary = decide (i.name = primaryName) ∧
      i.columns ≠ [] ∧ ∀ f ∈ i.fields, Identifier.misuse? f = none := by
  unfold misuse?
  cases Identifier.misuse? i.name with
  | some m => simp
  | none =>
    by_cases hkind : i.isPrimary = decide (i.name = primaryName)
    · by_cases hcolumns : i.columns = [] <;> simp [hkind, hcolumns]
    · simp [hkind]

theorem misuse?_name (h : i.misuse? = none) : Identifier.misuse? i.name = none :=
  (misuse?_eq_none_iff.mp h).1

/-- The primary index of accepted ones is the one with the reserved name. -/
theorem isPrimary_eq (h : i.misuse? = none) : i.isPrimary = decide (i.name = primaryName) :=
  (misuse?_eq_none_iff.mp h).2.1

theorem name_eq_of_isPrimary (h : i.misuse? = none) (hprimary : i.isPrimary = true) :
    i.name = primaryName :=
  of_decide_eq_true ((isPrimary_eq h).symm.trans hprimary)

theorem columns_ne_nil (h : i.misuse? = none) : i.columns ≠ [] :=
  (misuse?_eq_none_iff.mp h).2.2.1

theorem misuse?_fields (h : i.misuse? = none) : ∀ f ∈ i.fields, Identifier.misuse? f = none :=
  (misuse?_eq_none_iff.mp h).2.2.2

end Index

end SchemaMigration
