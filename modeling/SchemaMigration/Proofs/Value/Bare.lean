import Mathlib.Data.List.TakeWhile
import SchemaMigration.Proofs.Value.Literal

/-!
# Literals between blanks and before a cast

A catalog may report a default with blanks around it, and with a cast to its type after it. Without
these the default is read as a bare literal.

About `parse_inline`, on what `to_sql_inline` writes.

* `Text.trim_append_blanks`, `Text.trim_append_cons`: which blanks are taken off.
* `Value.dropCast_cast`: the last cast is taken off, whatever stands before it.
* **`Value.ofLiteral?_surrounded`**: a literal is read back with blanks around it, with a cast and
  without one.
-/

namespace SchemaMigration

/-! ## Blanks -/

namespace Text

variable {s t front back : List Char}

theorem trimEnd_append_blanks (h : ∀ c ∈ back, isBlank c = true) :
    trimEnd (s ++ back) = trimEnd s := by
  rw [trimEnd, trimEnd, List.reverse_append,
    List.dropWhile_append_of_pos fun c hc => h c (List.mem_reverse.mp hc)]

/-- Blanks around a text are taken off with those of the text. -/
theorem trim_append_blanks (hfront : ∀ c ∈ front, isBlank c = true)
    (hback : ∀ c ∈ back, isBlank c = true) : trim (front ++ s ++ back) = trim s := by
  have hstart : trimStart (front ++ s ++ back) = trimStart (s ++ back) := by
    rw [List.append_assoc]
    exact List.dropWhile_append_of_pos hfront
  rw [trim, hstart, trimStart, List.dropWhile_append]
  split
  · rename_i hempty
    -- the text is blank altogether
    have hblank : back.dropWhile isBlank = [] := List.dropWhile_eq_nil_iff.mpr hback
    rw [hblank, trim, trimStart, List.isEmpty_iff.mp hempty]
  · rw [trimEnd_append_blanks hback]
    rfl

/-- A text that is trimmed already does not start with a blank. -/
theorem trimStart_eq_self_of_trim (h : trim s = s) : trimStart s = s := by
  have hsuffix : trimStart s <:+ s := List.dropWhile_suffix isBlank
  have hshorter : (trim s).length ≤ (trimStart s).length := by
    rw [trim, trimEnd, List.length_reverse]
    have hdropped := (List.dropWhile_suffix isBlank (l := (trimStart s).reverse)).length_le
    rwa [List.length_reverse] at hdropped
  exact hsuffix.eq_of_length_le (by rwa [h] at hshorter)

/-- A text that goes on behind a trimmed part with a character that is no blank is trimmed at its
end only. -/
theorem trim_append_cons {c : Char} (h : trim s = s) (hc : isBlank c = false) :
    trim (s ++ c :: t) = s ++ c :: trimEnd t := by
  rw [trim, trimStart_append_cons hc, trimStart_eq_self_of_trim h, trimEnd_append_cons hc]

theorem mem_of_mem_trimEnd {c : Char} (h : c ∈ trimEnd s) : c ∈ s :=
  List.mem_reverse.mp ((List.dropWhile_suffix isBlank).subset (List.mem_reverse.mp h))

/-! ## Casts -/

/-- A cast mark behind which no colon stands is the last one. -/
theorem splitLast?_append_mark (ht : ':' ∉ t) : ∀ s : List Char,
    splitLast? [':', ':'] (s ++ ':' :: ':' :: t) = some (s, t)
  | [] => by
    have hnone : splitLast? [':', ':'] (':' :: t) = none := by
      refine Option.eq_none_iff_forall_ne_some.mpr fun ⟨before, after⟩ hcut => ht ?_
      -- the mark has two colons, and only one stands before the rest
      have htext := splitLast?_eq_some hcut
      cases before with
      | nil => simp [(List.cons.inj htext).2]
      | cons c r => simp [(List.cons.inj htext).2]
    rw [List.nil_append, splitLast?, hnone]
    rfl
  | c :: r => by
    rw [List.cons_append, splitLast?, splitLast?_append_mark ht r]

end Text

namespace Value

open Text

/-- The text of a default without the blanks around it and without its cast. -/
def bare (x : List Char) : List Char :=
  dropCast (trim x)

theorem dropCast_cast {s t : List Char} (hcolon : ':' ∉ t) (hquote : '\'' ∉ t) :
    dropCast (s ++ ':' :: ':' :: t) = s := by
  rw [dropCast, splitLast?_append_mark hcolon]
  simpa using hquote

theorem ofLiteral?_eq (x : List Char) : ofLiteral? x = ofBareLiteral? (bare x) := rfl

variable {front back : List Char}

theorem bare_surrounded {v : Value} (hv : v.isFloat = false)
    (hfront : ∀ c ∈ front, isBlank c = true) (hback : ∀ c ∈ back, isBlank c = true) :
    bare (front ++ v.literalChars ++ back) = v.literalChars := by
  rw [bare, trim_append_blanks hfront hback, trim_literalChars hv, dropCast_literalChars hv]

/-- A cast is taken off with the blanks around it. -/
theorem bare_cast {v : Value} (hv : v.isFloat = false) {type : List Char}
    (hfront : ∀ c ∈ front, isBlank c = true) (hback : ∀ c ∈ back, isBlank c = true)
    (hcolon : ':' ∉ type) (hquote : '\'' ∉ type) :
    bare (front ++ (v.literalChars ++ ':' :: ':' :: type) ++ back) = v.literalChars := by
  have hmark : trimEnd (':' :: type) = ':' :: trimEnd type := trimEnd_append_cons rfl [] type
  rw [bare, trim_append_blanks hfront hback, trim_append_cons (trim_literalChars hv) rfl, hmark]
  exact dropCast_cast (fun h => hcolon (mem_of_mem_trimEnd h))
    fun h => hquote (mem_of_mem_trimEnd h)

/-- **A literal is read back with blanks around it and a cast after it.** The value is any but a
double, and the name of the type any text without colons and quotes. -/
theorem ofLiteral?_surrounded {v : Value} (hv : v.isFloat = false) {type : String}
    (hcolon : ':' ∉ type.toList) (hquote : '\'' ∉ type.toList)
    (hfront : ∀ c ∈ front, isBlank c = true) (hback : ∀ c ∈ back, isBlank c = true) :
    ofLiteral? (front ++ v.literal.toList ++ back) = some v ∧
      ofLiteral? (front ++ (v.literal ++ "::" ++ type).toList ++ back) = some v := by
  have hliteral : v.literal.toList = v.literalChars := String.toList_ofList
  have hcast : (v.literal ++ "::" ++ type).toList =
      v.literalChars ++ ':' :: ':' :: type.toList := by
    rw [String.toList_append, String.toList_append, hliteral, List.append_assoc]
    rfl
  constructor
  · rw [hliteral, ofLiteral?_eq, bare_surrounded hv hfront hback, ofBareLiteral?_literalChars hv]
  · rw [hcast, ofLiteral?_eq, bare_cast hv hfront hback hcolon hquote,
      ofBareLiteral?_literalChars hv]

/-- A text with a quote and a cast mark of its own, between a tab and a line break. -/
theorem ofLiteral?_of_note :
    ofLiteral? "\t'it''s::x'\n".toList = some (.text "it's::x") ∧
      ofLiteral? "\t'it''s::x'::character varying\n".toList = some (.text "it's::x") :=
  @ofLiteral?_surrounded ['\t'] ['\n'] (.text "it's::x") rfl "character varying" (by decide)
    (by decide) (List.all_eq_true.mp rfl) (List.all_eq_true.mp rfl)

end Value

end SchemaMigration
