import SchemaMigration.Json.Reader
import SchemaMigration.Json.Writer
import SchemaMigration.Proofs.Value.Literal

/-!
# Strings and integers are read back from their text

The reader takes off the front of a text what the writer put there, whatever stands after it.

* `nextPiece_writeChar`: one character, escaped or not, is one piece. What follows for the body of a
  string, by induction on the characters, is `stringBody?_flatMap_writeChar`.
* `readNumber?_showInt`: the digits of an integer, as long as what stands after them does not go on
  with a number, which is what `EndsNumber` says. `value_ofInt` gives the integer back if it fits.
-/

namespace SchemaMigration.Json

open SchemaMigration.Decimal

/-! ## Strings -/

theorem hexValue?_hexDigit : ∀ n < 16, hexValue? (hexDigit n) = some n := by decide

/-- A control character is read back from its four digits. -/
theorem unitPiece_hexDigits {c : Char} (hc : c.toNat < 0x20) (rest : List Char) :
    unitPiece ('0' :: '0' :: hexDigit (c.toNat / 16) :: hexDigit (c.toNat % 16) :: rest) =
      .char c rest := by
  have hunit : hexUnit?
      ('0' :: '0' :: hexDigit (c.toNat / 16) :: hexDigit (c.toNat % 16) :: rest) =
        some (c.toNat, rest) := by
    have hzero : hexValue? '0' = some 0 := rfl
    have hsum : c.toNat / 16 * 16 + c.toNat % 16 = c.toNat := by omega
    simp [hexUnit?, hzero, hexValue?_hexDigit (c.toNat / 16) (by omega),
      hexValue?_hexDigit (c.toNat % 16) (by omega), hsum]
  have hleading : isLeading c.toNat = false := by
    simp only [isLeading, Bool.and_eq_false_iff, decide_eq_false_iff_not]
    omega
  have htrailing : isTrailing c.toNat = false := by
    simp only [isTrailing, Bool.and_eq_false_iff, decide_eq_false_iff_not]
    omega
  simp [unitPiece, hunit, hleading, htrailing, Char.ofNat_toNat]

/-- A character that needs no escape is a piece of its own. -/
theorem nextPiece_cons {c : Char} (hquote : c ≠ '"') (hmark : c ≠ '\\') (hc : ¬ c.toNat < 0x20)
    (rest : List Char) : nextPiece (c :: rest) = .char c rest := by
  unfold nextPiece
  split
  · rename_i h; cases h
  · rename_i h; exact absurd (List.cons.inj h).1 hquote
  · rename_i h; exact absurd (List.cons.inj h).1 hmark
  · rename_i h; exact absurd (List.cons.inj h).1 hmark
  · rename_i h
    obtain ⟨rfl, rfl⟩ := List.cons.inj h
    rw [if_neg (by simp [hc, hmark])]

/-- **What is written for a character is the next piece of the string.** -/
theorem nextPiece_writeChar (c : Char) (rest : List Char) :
    nextPiece (writeChar c ++ rest) = .char c rest := by
  unfold writeChar
  by_cases hquote : c = '"'
  · subst hquote; rfl
  by_cases hmark : c = '\\'
  · subst hmark; rfl
  rw [if_neg hquote, if_neg hmark]
  split
  · subst_vars; rfl
  split
  · subst_vars; rfl
  split
  · subst_vars; rfl
  split
  · subst_vars; rfl
  split
  · subst_vars; rfl
  split
  · rename_i hcontrol
    exact unitPiece_hexDigits hcontrol rest
  · rename_i hcontrol
    exact nextPiece_cons hquote hmark hcontrol rest

theorem writeChar_ne_nil (c : Char) : writeChar c ≠ [] := by
  unfold writeChar
  repeat' split
  all_goals exact List.cons_ne_nil _ _

theorem length_le_length_flatMap_writeChar (cs : List Char) :
    cs.length ≤ (cs.flatMap writeChar).length := by
  induction cs with
  | nil => exact Nat.le_refl _
  | cons c r ih =>
    have hc : 0 < (writeChar c).length := List.length_pos_of_ne_nil (writeChar_ne_nil c)
    rw [List.flatMap_cons, List.length_append, List.length_cons]
    omega

theorem readString?_flatMap_writeChar (cs rest : List Char) :
    ∀ (fuel : Nat) (read : List Char), cs.length < fuel →
      readString? fuel read false (cs.flatMap writeChar ++ '"' :: rest) =
        some (read.reverse ++ cs, false, rest) := by
  induction cs with
  | nil =>
    intro fuel read hfuel
    obtain ⟨fuel, rfl⟩ := Nat.exists_eq_succ_of_ne_zero (Nat.ne_of_gt hfuel)
    rw [List.append_nil]
    rfl
  | cons c r ih =>
    intro fuel read hfuel
    obtain ⟨fuel, rfl⟩ := Nat.exists_eq_succ_of_ne_zero (Nat.ne_zero_of_lt hfuel)
    rw [List.flatMap_cons, List.append_assoc, readString?, nextPiece_writeChar]
    show readString? fuel (c :: read) false _ = _
    rw [ih fuel (c :: read) (Nat.lt_of_succ_lt_succ hfuel), List.reverse_cons, List.append_assoc]
    rfl

/-- The string between the quotes is read back. -/
theorem stringBody?_flatMap_writeChar (cs rest : List Char) :
    stringBody? (cs.flatMap writeChar ++ '"' :: rest) = some (cs, false, rest) := by
  have hlength := length_le_length_flatMap_writeChar cs
  refine readString?_flatMap_writeChar cs rest _ [] ?_
  rw [List.length_append]
  omega

/-! ## Integers -/

/-- A number that stands before the text ends there. -/
def EndsNumber (rest : List Char) : Prop :=
  ∀ c ∈ rest.head?, isDigit c = false ∧ c ≠ '.' ∧ c ≠ 'e' ∧ c ≠ 'E'

theorem endsNumber_nil : EndsNumber [] := by
  intro c hc
  cases hc

theorem endsNumber_comma (rest : List Char) : EndsNumber (',' :: rest) := by
  rintro c ⟨⟩
  decide

theorem endsNumber_bracket (rest : List Char) : EndsNumber (']' :: rest) := by
  rintro c ⟨⟩
  decide

theorem endsNumber_brace (rest : List Char) : EndsNumber ('}' :: rest) := by
  rintro c ⟨⟩
  decide

theorem spanDigits_append {ds rest : List Char} (hds : ds.all isDigit = true)
    (hrest : EndsNumber rest) : spanDigits (ds ++ rest) = (ds, rest) := by
  have hall : ∀ c ∈ ds, isDigit c = true := List.all_eq_true.mp hds
  have hnone : rest.takeWhile isDigit = [] ∧ rest.dropWhile isDigit = rest := by
    cases rest with
    | nil => exact ⟨rfl, rfl⟩
    | cons c r => simp [(hrest c rfl).1]
  rw [spanDigits, List.takeWhile_append_of_pos hall, List.dropWhile_append_of_pos hall, hnone.1,
    hnone.2, List.append_nil]

theorem readFraction?_of_endsNumber {rest : List Char} (hrest : EndsNumber rest) :
    readFraction? rest = some (none, rest) := by
  unfold readFraction?
  split
  · exact absurd rfl (hrest '.' rfl).2.1
  · rfl

theorem readPower?_of_endsNumber {rest : List Char} (hrest : EndsNumber rest) :
    readPower? rest = some (none, rest) := by
  cases rest with
  | nil => rfl
  | cons c r =>
    obtain ⟨-, -, he, hE⟩ := hrest c rfl
    simp [readPower?, he, hE]

theorem digitChar_ne_zero : ∀ d < 10, d ≠ 0 → digitChar d ≠ '0' := by decide

/-- Only the number zero is written with a leading zero. -/
theorem eq_zero_of_head?_digits {n : Nat} (h : (digits n).head? = some '0') : n = 0 := by
  induction n using Nat.strongRecOn with
  | _ n ih =>
    rw [digits] at h
    split at h
    · rename_i hsmall
      by_contra hn
      exact digitChar_ne_zero n hsmall hn (Option.some.inj h)
    · rename_i hlarge
      have hhead : (digits (n / 10)).head? = some '0' := by
        rwa [List.head?_append_of_ne_nil _ (digits_ne_nil _)] at h
      have := ih (n / 10) (by omega) hhead
      omega

theorem readUnsigned?_digits (negative : Bool) (n : Nat) {rest : List Char}
    (hrest : EndsNumber rest) :
    Json.readUnsigned? negative (digits n ++ rest) =
      some (⟨negative, digits n, none, none⟩, rest) := by
  have hleading : ¬ ((digits n).head? = some '0' ∧ (digits n).length ≠ 1) := by
    rintro ⟨hzero, hlength⟩
    obtain rfl := eq_zero_of_head?_digits hzero
    exact hlength (by simp [digits])
  simp only [Json.readUnsigned?, spanDigits_append (all_isDigit_digits n) hrest,
    List.isEmpty_iff, digits_ne_nil, if_false, if_neg hleading, readFraction?_of_endsNumber hrest,
    Option.bind_eq_bind, Option.bind_some, readPower?_of_endsNumber hrest]
  rfl

/-- The parts of an integer's text. -/
def NumberText.ofInt (n : Int) : NumberText :=
  ⟨decide (n < 0), digits n.natAbs, none, none⟩

/-- **The text of an integer is read as far as it goes.** -/
theorem readNumber?_showInt (n : Int) {rest : List Char} (hrest : EndsNumber rest) :
    readNumber? (showInt n ++ rest) = some (NumberText.ofInt n, rest) := by
  cases n with
  | ofNat n =>
    obtain ⟨c, r, htext⟩ := List.exists_cons_of_ne_nil (digits_ne_nil n)
    have hdigit : isDigit c = true :=
      List.all_eq_true.mp (all_isDigit_digits n) c (by simp [htext])
    have hplain : readNumber? (digits n ++ rest) = Json.readUnsigned? false (digits n ++ rest) := by
      rw [htext]
      unfold readNumber?
      split
      · rename_i heq
        rw [(List.cons.inj heq).1] at hdigit
        cases hdigit
      · rfl
    exact hplain.trans (readUnsigned?_digits false n hrest)
  | negSucc n =>
    have hparts : NumberText.ofInt (.negSucc n) = ⟨true, digits (n + 1), none, none⟩ := by
      simp [NumberText.ofInt, Int.negSucc_lt_zero]
    rw [hparts]
    exact readUnsigned?_digits true (n + 1) hrest

/-- The integer fits 64 bits, signed when it is negative and unsigned otherwise. -/
def fitsWord (n : Int) : Bool :=
  decide (-(twoTo 63 : Int) ≤ n) && decide (n ≤ greatestWord)

/-- An integer that fits is its own value. -/
theorem value_ofInt {n : Int} (h : fitsWord n = true) : (NumberText.ofInt n).value = .int n := by
  simp only [fitsWord, Bool.and_eq_true, decide_eq_true_eq] at h
  simp only [NumberText.value, NumberText.ofInt, ofDigits_digits, Option.isNone_none, Bool.and_self,
    Bool.true_and]
  by_cases hn : n < 0
  · have hpositive : 0 < n.natAbs := by omega
    have hbound : n.natAbs ≤ twoTo 63 := by omega
    simp only [hn, decide_true, if_true, hpositive, hbound, Bool.and_self]
    congr 1
    omega
  · have hbound : n.natAbs ≤ greatestWord := by omega
    simp only [hn, decide_false, Bool.false_eq_true, if_false, hbound, decide_true, if_true]
    congr 1
    omega

end SchemaMigration.Json
