import Mathlib.Data.List.TakeWhile
import SchemaMigration.Proofs.Checks
import SchemaMigration.Proofs.Identity
import SchemaMigration.Proofs.Value.Literal
import SchemaMigration.Dialect.TypeName

/-!
# Type names are read back

A catalog reports the type of a column by the name that it was declared with. The SQLite name of a
type with its size is read back as both.

* `Text.splitFirst?_of_mark_free`: a text is cut at the first of its marks.
* `Dialect.splitSize_sizedName`: the base name and the size of a name that has one.
* **`Dialect.parseTypeName?_typeName`**: the SQLite name of a well-formed column's type is read back
  as the type and the size.
-/

namespace SchemaMigration

theorem Text.splitFirst?_of_mark_free {c : Char} (r : List Char) : ∀ {s : List Char}, c ∉ s →
    splitFirst? [c] (s ++ c :: r) = some (s, r)
  | [], _ => splitFirst?_of_front [c] r
  | a :: s, h => by
    rw [List.mem_cons, not_or] at h
    have hfront : ¬[c] <+: a :: (s ++ c :: r) := by simp [h.1]
    rw [List.cons_append, splitFirst?_cons_of_not_front hfront, splitFirst?_of_mark_free r h.2]
    rfl

namespace Decimal

/-- What holds of the ten digits holds of every character of a number. -/
theorem forall_mem_digits {P : Char → Prop} [DecidablePred P]
    (h : (((List.range 10).map digitChar).all fun c => decide (P c)) = true) (n : Nat) :
    ∀ c ∈ digits n, P c :=
  fun c hc => Text.forall_mem_of_decide h c (mem_of_mem_digits hc)

theorem readUnsigned?_digits (n : Nat) : readUnsigned? (digits n) = some n := by
  unfold readUnsigned?
  split
  · rename_i r htext
    have hplus : ∀ c ∈ digits n, c ≠ '+' := forall_mem_digits (by decide) n
    exact absurd rfl (hplus '+' (by rw [htext]; exact List.mem_cons_self))
  · exact readNat?_digits n

end Decimal

namespace Dialect

open Decimal

theorem readSize?_digits (n : UInt32) : readSize? (digits n.toNat) = some n := by
  have hbound : n.toNat < twoTo 32 := n.toNat_lt
  rw [readSize?, readUnsigned?_digits, Option.bind_some, if_pos hbound, UInt32.ofNat_toNat]

/-- A name with a size between parentheses is cut into the base name and the size. -/
theorem splitSize_sizedName {base : List Char} (hmark : '(' ∉ base)
    (hblank : ∀ c ∈ base, Text.isBlank c = false) (n : UInt32) :
    splitSize (base ++ '(' :: (digits n.toNat ++ [')'])) = (base, some n) := by
  have hdigits : ∀ c ∈ digits n.toNat, c ≠ ')' ∧ c ≠ ',' ∧ Text.isBlank c = false :=
    forall_mem_digits (by decide) n.toNat
  have hinside : ((digits n.toNat ++ [')']).reverse.dropWhile fun c => c == ')').reverse =
      digits n.toNat := by
    have hkept : (digits n.toNat).reverse.dropWhile (fun c => c == ')') =
        (digits n.toNat).reverse := by
      rw [List.dropWhile_eq_self_iff]
      intro hl
      simpa using (hdigits _ (List.mem_reverse.mp (List.getElem_mem hl))).1
    rw [List.reverse_append, List.reverse_singleton, List.singleton_append,
      List.dropWhile_cons_of_pos rfl, hkept, List.reverse_reverse]
  have hfirst : (digits n.toNat).takeWhile (fun c => c != ',') = digits n.toNat :=
    List.takeWhile_eq_self_iff.mpr fun c hc => by simpa using (hdigits c hc).2.1
  rw [splitSize, Text.splitFirst?_of_mark_free _ hmark]
  simp only [hinside, hfirst, Text.trim_of_blank_free hblank,
    Text.trim_of_blank_free fun c hc => (hdigits c hc).2.2, readSize?_digits]

/-- A sized type is read back from its name in capitals. -/
theorem parseSqliteTypeName?_sized {base : String} {type : ColumnType} (n : UInt32)
    (hbase : sqliteBaseType? base = some type) (htype : type.isSized = true)
    (hmark : '(' ∉ base.toList) (hblank : ∀ c ∈ base.toList, Text.isBlank c = false)
    (hupper : base.toList.map Char.toUpper = base.toList) :
    parseSqliteTypeName? (base ++ "(" ++ showNat n.toNat ++ ")") = some (type, some n) := by
  have hdigits : (digits n.toNat).map Char.toUpper = digits n.toNat := by
    have hsame : ∀ c ∈ digits n.toNat, c.toUpper = id c := forall_mem_digits (by decide) n.toNat
    rw [List.map_congr_left hsame, List.map_id]
  have htext : (base ++ "(" ++ showNat n.toNat ++ ")").toList.map Char.toUpper =
      base.toList ++ '(' :: (digits n.toNat ++ [')']) := by
    simp only [String.toList_append, showNat, String.toList_ofList, List.map_append, hupper,
      hdigits]
    simp
  rw [parseSqliteTypeName?, htext, splitSize_sizedName hmark hblank]
  simp only [String.ofList_toList, hbase, Option.map_some, htype, if_true]

/-- **A type is read back from its SQLite name**, with its size where it has one. -/
theorem parseSqliteTypeName?_sqliteTypeName {type : ColumnType} {size : Option UInt32}
    (h : size.isSome = true → type.isSized = true) :
    parseSqliteTypeName? (sqliteTypeName type size) = some (type, size) := by
  cases size with
  | none => cases type <;> decide +kernel
  | some n =>
    have hsized := h rfl
    cases type with
    | text =>
      exact parseSqliteTypeName?_sized n rfl rfl (by decide) (Text.forall_mem_of_decide (by decide))
        (by decide)
    | blob =>
      exact parseSqliteTypeName?_sized n rfl rfl (by decide) (Text.forall_mem_of_decide (by decide))
        (by decide)
    | _ => cases hsized

end Dialect

/-- **The type of a well-formed column** is read back from its SQLite name. -/
theorem Dialect.parseTypeName?_typeName {c : Column} (h : c.misuse? = none) :
    parseTypeName? .sqlite (typeName .sqlite c) = some (c.type, c.size) :=
  parseSqliteTypeName?_sqliteTypeName (Column.isSized_of_misuse? h)

end SchemaMigration
