import Mathlib.Data.List.Basic
import SchemaMigration.Value.Literal

/-!
# Literals are read back

A catalog reports the default of a column by the text that it was written with. For every value but
a double that text is read back as the value.

* `Text.trim_eq_self`: nothing is taken off a text that has no blank at its ends.
* `Value.dropCast_concat_quote`, `Value.dropCast_of_colon_free`: a literal is not taken for a cast.
* `Value.bytes?_hexDigits`: the digits of bytes are read back.
* **`Value.ofLiteral?_literalChars`**: the literal of a value other than a double is read back.
-/

namespace SchemaMigration

/-! ## Cutting texts -/

namespace Text

/-- What is decided of every character of a text holds of them. The characters are tried one by one,
and not all that there are. -/
theorem forall_mem_of_decide {P : Char → Prop} [DecidablePred P] {s : List Char}
    (h : (s.all fun c => decide (P c)) = true) : ∀ c ∈ s, P c := by
  simpa using h

theorem splitLast?_eq_some {mark : List Char} : ∀ {s before after : List Char},
    splitLast? mark s = some (before, after) → s = before ++ mark ++ after
  | [], before, after, h => by
    obtain ⟨rest, hrest, h⟩ := Option.map_eq_some_iff.mp h
    cases h
    exact (List.isPrefixOf?_eq_some_iff_append_eq.mp hrest).symm
  | c :: r, before, after, h => by
    unfold splitLast? at h
    split at h
    · rename_i cut hcut
      cases h
      rw [splitLast?_eq_some hcut]
      rfl
    · obtain ⟨rest, hrest, h⟩ := Option.map_eq_some_iff.mp h
      cases h
      exact (List.isPrefixOf?_eq_some_iff_append_eq.mp hrest).symm

theorem trimStart_eq_self {s : List Char} (h : ∀ c ∈ s.head?, isBlank c = false) :
    trimStart s = s := by
  cases s with
  | nil => rfl
  | cons c r => exact trimStart_cons_of_not_blank (h c rfl)

/-- A text without blanks at its ends is trimmed already. -/
theorem trim_eq_self {s : List Char} (hfirst : ∀ c ∈ s.head?, isBlank c = false)
    (hlast : ∀ c ∈ s.getLast?, isBlank c = false) : trim s = s := by
  have hreverse : trimStart s.reverse = s.reverse :=
    trimStart_eq_self (by rwa [List.head?_reverse])
  rw [trim, trimStart_eq_self hfirst, trimEnd]
  exact (congrArg List.reverse hreverse).trans (List.reverse_reverse s)

theorem trim_of_blank_free {s : List Char} (h : ∀ c ∈ s, isBlank c = false) : trim s = s :=
  trim_eq_self (fun c hc => h c (List.mem_of_mem_head? hc))
    fun c hc => h c (List.mem_of_getLast? hc)

theorem enclosed?_append (opening closing s : List Char) :
    enclosed? opening closing (opening ++ s ++ closing) = some s := by
  have hfront : opening.isPrefixOf? (opening ++ s ++ closing) = some (s ++ closing) :=
    List.isPrefixOf?_eq_some_iff_append_eq.mpr (List.append_assoc _ _ _).symm
  rw [enclosed?, hfront]
  exact List.isSuffixOf?_eq_some_iff_append_eq.mpr rfl

theorem enclosed?_eq_some {opening closing s t : List Char}
    (h : enclosed? opening closing s = some t) : s = opening ++ t ++ closing := by
  obtain ⟨rest, hrest, hclosing⟩ := Option.bind_eq_some_iff.mp h
  rw [← List.isPrefixOf?_eq_some_iff_append_eq.mp hrest,
    ← List.isSuffixOf?_eq_some_iff_append_eq.mp hclosing, List.append_assoc]

theorem enclosed?_cons_of_ne {a c : Char} (h : a ≠ c) (closing r : List Char) :
    enclosed? [a] closing (c :: r) = none := by
  simp [enclosed?, List.isPrefixOf?, h]

theorem sameAsciiLetters_cons_of_ne {a b : Char} (h : a.toLower ≠ b.toLower) (s t : List Char) :
    sameAsciiLetters (a :: s) (b :: t) = false := by
  simp [sameAsciiLetters, h]

end Text

/-! ## Numbers -/

namespace Decimal

theorem mem_of_mem_digits {n : Nat} {c : Char} (h : c ∈ digits n) :
    c ∈ (List.range 10).map digitChar := by
  have hdigit : isDigit c = true := List.all_eq_true.mp (all_isDigit_digits n) c h
  simp only [isDigit, Bool.and_eq_true, decide_eq_true_eq] at hdigit
  refine List.mem_map.mpr ⟨c.toNat - 48, List.mem_range.mpr (by omega), ?_⟩
  rw [digitChar, Nat.add_sub_cancel' hdigit.1, Char.ofNat_toNat]

/-- The characters of an integer. -/
theorem mem_of_mem_showInt {n : Int} {c : Char} (h : c ∈ showInt n) :
    c ∈ '-' :: (List.range 10).map digitChar := by
  cases n with
  | ofNat n => exact List.mem_cons_of_mem _ (mem_of_mem_digits h)
  | negSucc n =>
    rcases List.mem_cons.mp h with rfl | h
    · exact List.mem_cons_self
    · exact List.mem_cons_of_mem _ (mem_of_mem_digits h)

theorem showInt_ne_nil (n : Int) : showInt n ≠ [] := by
  cases n with
  | ofNat n => exact digits_ne_nil n
  | negSucc n => exact List.cons_ne_nil _ _

end Decimal

/-! ## Literals -/

namespace Value

/-- A cast mark inside quotes is none. -/
theorem dropCast_concat_quote (s : List Char) : dropCast (s ++ ['\'']) = s ++ ['\''] := by
  unfold dropCast
  split
  · rename_i before after hcut
    have htext := Text.splitLast?_eq_some hcut
    -- the mark is no quote, so the last quote stands after it
    have hlast := congrArg List.getLast? htext
    rw [List.getLast?_concat, List.getLast?_append] at hlast
    have hquote : '\'' ∈ after := by
      cases hafter : after.getLast? with
      | none => simp [hafter] at hlast
      | some c =>
        rw [hafter, Option.some_or] at hlast
        rw [Option.some.inj hlast]
        exact List.mem_of_getLast? hafter
    rw [if_pos (by simpa using hquote)]
  · rfl

theorem dropCast_of_colon_free {s : List Char} (h : ':' ∉ s) : dropCast s = s := by
  unfold dropCast
  split
  · rename_i before after hcut
    have htext := Text.splitLast?_eq_some hcut
    exact absurd (by simp [htext]) h
  · rfl

theorem hexValue?_hexDigit : ∀ n < 16, Json.hexValue? (hexDigit n) = some n := by decide

theorem hexDigit_ne_plus : ∀ n < 16, hexDigit n ≠ '+' := by decide

theorem byte?_hexDigit (b : UInt8) :
    byte? (hexDigit (b.toNat / 16)) (hexDigit (b.toNat % 16)) = some b := by
  have hbound : b.toNat < 256 := b.toNat_lt
  have hhigh : b.toNat / 16 < 16 := by omega
  have hlow : b.toNat % 16 < 16 := by omega
  have hsum : 16 * (b.toNat / 16) + b.toNat % 16 = b.toNat := by omega
  have hvalue : byte? (hexDigit (b.toNat / 16)) (hexDigit (b.toNat % 16)) =
      some (UInt8.ofNat (16 * (b.toNat / 16) + b.toNat % 16)) := by
    simp [byte?, hexValue?_hexDigit _ hlow, hexDigit_ne_plus _ hhigh, hexValue?_hexDigit _ hhigh]
  rw [hvalue, hsum, UInt8.ofNat_toNat]

/-- The digits of bytes are read back. -/
theorem bytes?_hexDigits (bs : List UInt8) : bytes? (hexDigits bs) = some bs := by
  induction bs with
  | nil => rfl
  | cons b r ih =>
    rw [hexDigits, bytes?, byte?_hexDigit, ih]
    rfl

theorem int64?_toInt (n : Int64) : int64? n.toInt = some n := by
  have hlow : -(twoTo 63 : Int) ≤ n.toInt := n.le_toInt
  have hhigh : n.toInt < (twoTo 63 : Int) := n.toInt_lt
  rw [int64?, if_pos ⟨hlow, hhigh⟩, Int64.ofInt_toInt]

/-! ### One lemma for every kind of value -/

theorem ofBareLiteral?_int (n : Int64) :
    ofBareLiteral? (Decimal.showInt n.toInt) = some (.int n) := by
  obtain ⟨c, r, htext⟩ := List.exists_cons_of_ne_nil (Decimal.showInt_ne_nil n.toInt)
  have hc : c ∈ '-' :: (List.range 10).map Decimal.digitChar :=
    Decimal.mem_of_mem_showInt (n := n.toInt) (by rw [htext]; exact List.mem_cons_self)
  have hwords : ∀ c ∈ '-' :: (List.range 10).map Decimal.digitChar,
      c.toLower ≠ 'N'.toLower ∧ c.toLower ≠ 'T'.toLower ∧ c.toLower ≠ 'F'.toLower ∧
        'X' ≠ c ∧ 'x' ≠ c ∧ '\'' ≠ c ∧ '(' ≠ c :=
    Text.forall_mem_of_decide (by decide)
  obtain ⟨hN, hT, hF, hX, hx, hquote, hparen⟩ := hwords c hc
  have hbody : blobBody? (c :: r) = none := by
    unfold blobBody?
    split
    · rename_i heq
      exact absurd (List.cons.inj heq).1.symm hX
    · rename_i heq
      exact absurd (List.cons.inj heq).1.symm hx
    · rfl
  have hnumber : number? (c :: r) = some (.int n) := by
    rw [number?, Text.enclosed?_cons_of_ne hparen, Option.getD_none, ← htext,
      Decimal.readSigned?_showInt]
    simp only [Option.bind_some, int64?_toInt]
  have hnull : Text.sameAsciiLetters (c :: r) "NULL".toList = false :=
    Text.sameAsciiLetters_cons_of_ne hN r _
  have htrue : Text.sameAsciiLetters (c :: r) "TRUE".toList = false :=
    Text.sameAsciiLetters_cons_of_ne hT r _
  have hfalse : Text.sameAsciiLetters (c :: r) "FALSE".toList = false :=
    Text.sameAsciiLetters_cons_of_ne hF r _
  rw [htext, ofBareLiteral?, hnull, htrue, hfalse, hbody, Text.enclosed?_cons_of_ne hquote, hnumber]
  rfl

/-- What stands between quotes is a text, whatever it is. -/
theorem ofBareLiteral?_quoted (body : List Char) :
    ofBareLiteral? ('\'' :: body ++ ['\'']) =
      some (.text (String.ofList (Text.collapse '\'' body))) := by
  have hclosed : Text.enclosed? ['\''] ['\''] ('\'' :: body ++ ['\'']) = some body :=
    Text.enclosed?_append ['\''] ['\''] body
  have hbody : blobBody? ('\'' :: body ++ ['\'']) = none := rfl
  rw [ofBareLiteral?, hbody, hclosed]
  rfl

/-- What stands between quotes behind an `X` is bytes or nothing. -/
theorem ofBareLiteral?_marked {mark : Char} (hmark : mark = 'X' ∨ mark = 'x') (body : List Char) :
    ofBareLiteral? (mark :: '\'' :: body ++ ['\'']) = (bytes? body).map .blob := by
  have hbody : blobBody? (mark :: '\'' :: body ++ ['\'']) = some body := by
    rcases hmark with rfl | rfl <;> exact List.isSuffixOf?_eq_some_iff_append_eq.mpr rfl
  rw [ofBareLiteral?, hbody]
  rcases hmark with rfl | rfl <;> rfl

theorem ofBareLiteral?_text (s : String) :
    ofBareLiteral? (Text.quoted '\'' s.toList) = some (.text s) := by
  rw [Text.quoted, ofBareLiteral?_quoted, Text.collapse_double, String.ofList_toList]

theorem ofBareLiteral?_blob (bs : List UInt8) :
    ofBareLiteral? ('X' :: '\'' :: hexDigits bs ++ ['\'']) = some (.blob bs) := by
  rw [ofBareLiteral?_marked (.inl rfl), bytes?_hexDigits, Option.map_some]

theorem ofBareLiteral?_literalChars {v : Value} (h : v.isFloat = false) :
    ofBareLiteral? v.literalChars = some v := by
  cases v with
  | null => rfl
  | bool b => cases b <;> rfl
  | int n => exact ofBareLiteral?_int n
  | float x => cases h
  | text s => exact ofBareLiteral?_text s
  | blob bs => exact ofBareLiteral?_blob bs

theorem dropCast_literalChars {v : Value} (h : v.isFloat = false) :
    dropCast v.literalChars = v.literalChars := by
  cases v with
  | null => rfl
  | bool b => cases b <;> rfl
  | int n =>
    refine dropCast_of_colon_free fun hmem => ?_
    exact absurd (Decimal.mem_of_mem_showInt hmem) (by decide)
  | float x => cases h
  | text s => exact dropCast_concat_quote ('\'' :: Text.double '\'' s.toList)
  | blob bs => exact dropCast_concat_quote ('X' :: '\'' :: hexDigits bs)

theorem trim_literalChars {v : Value} (h : v.isFloat = false) :
    Text.trim v.literalChars = v.literalChars := by
  have hquoted : ∀ (c : Char) (s : List Char), Text.isBlank c = false →
      Text.trim (c :: s ++ ['\'']) = c :: s ++ ['\''] := by
    intro c s hc
    refine Text.trim_eq_self ?_ ?_
    · rintro d ⟨⟩
      exact hc
    · intro d hd
      rw [List.getLast?_concat] at hd
      cases hd
      rfl
  cases v with
  | null => rfl
  | bool b => cases b <;> rfl
  | int n =>
    have hblank : ∀ c ∈ '-' :: (List.range 10).map Decimal.digitChar, Text.isBlank c = false :=
      Text.forall_mem_of_decide (by decide)
    exact Text.trim_of_blank_free fun c hc => hblank c (Decimal.mem_of_mem_showInt hc)
  | float x => cases h
  | text s => exact hquoted '\'' (Text.double '\'' s.toList) rfl
  | blob bs => exact hquoted 'X' ('\'' :: hexDigits bs) rfl

/-- **The literal of a value other than a double is read back.** -/
theorem ofLiteral?_literalChars {v : Value} (h : v.isFloat = false) :
    ofLiteral? v.literalChars = some v := by
  rw [ofLiteral?, trim_literalChars h, dropCast_literalChars h, ofBareLiteral?_literalChars h]

end Value

end SchemaMigration
