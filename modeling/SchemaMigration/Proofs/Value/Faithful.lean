import SchemaMigration.Proofs.Value.Bare

/-!
# Which quoted expressions are read

A default expression is taken for a text when it starts and ends with a quote, and for bytes when an
`X` stands in front. What is between the quotes is not looked at for a text, and a digit of a byte
may be a plus. So there are expressions which are read although they are no literals.

About `parse_inline`.

* `Text.paired_iff`: doubling undoes the collapsing of quotes iff these come in pairs.
* `Value.number?_of_quote`: nothing with a quote is a number.
* `Value.reading_ofBareLiteral?`: the four ways in which a bare expression is read.
* **`Value.faithful_ofLiteral?_iff`**: a default is read as a text or as bytes only where it is the
  literal of these, and not at all where it holds quotes and is no literal, iff no quote stands
  alone inside the quotes of a text and no plus among the digits of bytes.
-/

namespace SchemaMigration

/-! ## Paired quotes -/

namespace Text

/-- The quotes of a text come in pairs, one right behind the other. -/
def paired (quote : Char) : List Char → Bool
  | [] => true
  | [c] => c != quote
  | c :: d :: r => if c = quote then d == quote && paired quote r else paired quote (d :: r)

/-- A text is made by doubling quotes iff its quotes come in pairs. -/
theorem paired_iff (quote : Char) :
    ∀ s : List Char, paired quote s = true ↔ double quote (collapse quote s) = s
  | [] => by simp [paired, collapse, double]
  | [c] => by by_cases hc : c = quote <;> simp [paired, collapse, double, hc]
  | c :: d :: r => by
    by_cases hc : c = quote
    · subst hc
      by_cases hd : d = c
      · subst hd
        simp [paired, collapse, double_cons_quote, paired_iff d r]
      · -- a quote that stands alone is doubled
        simp [paired, collapse, hd, double_cons_quote, collapse_cons_of_ne hd, Ne.symm hd]
    · simp [paired, collapse, hc, double_cons_of_ne hc, paired_iff quote (d :: r)]

theorem sameAsciiLetters_cons (a b : Char) (s t : List Char) :
    sameAsciiLetters (a :: s) (b :: t) =
      (decide (a.toLower = b.toLower) && sameAsciiLetters s t) := by
  by_cases h : a.toLower = b.toLower <;> simp [sameAsciiLetters, h]

theorem sameAsciiLetters_append_right (s t u : List Char) :
    sameAsciiLetters (s ++ u) (t ++ u) = sameAsciiLetters s t := by
  simp [sameAsciiLetters]

/-- A quote has no case, so it stands in both of two texts that differ in case only. -/
theorem sameAsciiLetters_of_quote {s t : List Char} (hs : '\'' ∈ s)
    (ht : '\'' ∉ t.map Char.toLower) : sameAsciiLetters s t = false := by
  refine eq_false_of_ne_true fun h => ht ?_
  rw [← eq_of_beq h]
  exact List.mem_map_of_mem (f := Char.toLower) hs

end Text

/-! ## Numbers hold no quotes -/

section Numbers

variable {s : List Char}

theorem Decimal.readNat?_of_quote (h : '\'' ∈ s) : readNat? s = none := by
  rw [readNat?, if_neg]
  rintro ⟨-, hdigits⟩
  exact absurd (List.all_eq_true.mp hdigits _ h) (by decide)

theorem Decimal.readSigned?_of_quote (h : '\'' ∈ s) : readSigned? s = none := by
  unfold readSigned?
  split
  · rw [readNat?_of_quote (List.mem_of_ne_of_mem (by decide) h)]
    rfl
  · rw [readNat?_of_quote (List.mem_of_ne_of_mem (by decide) h)]
    rfl
  · rw [readNat?_of_quote h]
    rfl

namespace Binary64

theorem quote_mem_dropWhile (h : '\'' ∈ s) : '\'' ∈ s.dropWhile Decimal.isDigit := by
  rw [← List.takeWhile_append_dropWhile (p := Decimal.isDigit) (l := s)] at h
  refine (List.mem_append.mp h).resolve_left fun hdigit => ?_
  exact absurd (List.mem_takeWhile_imp hdigit) (by decide)

theorem readExponent?_of_quote (h : '\'' ∈ s) : readExponent? s = none := by
  unfold readExponent?
  split
  · cases h
  · split
    · rename_i c r hc
      refine Decimal.readSigned?_of_quote (List.mem_of_ne_of_mem ?_ h)
      rcases hc with rfl | rfl <;> decide
    · rfl

theorem readUnsigned?_of_quote (negative : Bool) (h : '\'' ∈ s) :
    readUnsigned? negative s = none := by
  have hrest := quote_mem_dropWhile h
  unfold readUnsigned?
  generalize s.dropWhile Decimal.isDigit = rest at hrest
  dsimp only
  split
  · -- the quote is neither the point nor a digit behind it
    have htail := quote_mem_dropWhile (List.mem_of_ne_of_mem (by decide) hrest)
    rw [readExponent?_of_quote htail, Option.map_none, ite_self]
  · rw [readExponent?_of_quote hrest, Option.map_none, ite_self]

theorem readMagnitude?_of_quote (negative : Bool) (h : '\'' ∈ s) :
    readMagnitude? negative s = none := by
  have hword : ∀ w : String, '\'' ∉ w.toList → String.ofList (s.map Char.toLower) ≠ w := by
    rintro w hw rfl
    rw [String.toList_ofList] at hw
    exact hw (List.mem_map_of_mem (f := Char.toLower) h)
  have hinfinite := not_or.mpr ⟨hword "inf" (by decide), hword "infinity" (by decide)⟩
  have hnan := hword "nan" (by decide)
  have hunsigned := readUnsigned?_of_quote negative h
  simp only [readMagnitude?, hinfinite, hnan, hunsigned, if_false]

theorem read?_of_quote (h : '\'' ∈ s) : read? s = none := by
  unfold read?
  split
  · exact readMagnitude?_of_quote true (List.mem_of_ne_of_mem (by decide) h)
  · exact readMagnitude?_of_quote false (List.mem_of_ne_of_mem (by decide) h)
  · exact readMagnitude?_of_quote false h

end Binary64

end Numbers

namespace Value

open Text

/-- Nothing with a quote is a number, in parentheses or not. -/
theorem number?_of_quote {s : List Char} (h : '\'' ∈ s) : number? s = none := by
  have hinner : '\'' ∈ (enclosed? ['('] [')'] s).getD s := by
    cases henclosed : enclosed? ['('] [')'] s with
    | none => exact h
    | some t =>
      rw [enclosed?_eq_some henclosed] at h
      simpa using h
  rw [number?, Decimal.readSigned?_of_quote hinner, Binary64.read?_of_quote hinner]
  rfl

/-! ## Digits of bytes -/

/-- A hexadecimal digit is the one that is written for its value, but for its case. -/
theorem hexValue?_eq_some {c : Char} {n : Nat} (h : Json.hexValue? c = some n) :
    n < 16 ∧ c ≠ '+' ∧ c.toLower = (hexDigit n).toLower := by
  have hall : ∀ k < 103, ∀ n ∈ Json.hexValue? (Char.ofNat k),
      n < 16 ∧ Char.ofNat k ≠ '+' ∧ (Char.ofNat k).toLower = (hexDigit n).toLower := by decide
  have hbound : c.toNat < 103 := by
    unfold Json.hexValue? at h
    simp only at h
    split at h
    · omega
    · split at h
      · omega
      · split at h
        · omega
        · cases h
  have hc := hall c.toNat hbound n
  rw [Char.ofNat_toNat] at hc
  exact hc h

theorem byte?_eq (a b : Char) : byte? a b = (Json.hexValue? b).bind fun low =>
    (if a = '+' then some 0 else Json.hexValue? a).map fun high =>
      UInt8.ofNat (16 * high + low) := by
  unfold byte?
  by_cases ha : a = '+'
  · simp [ha]
  · cases Json.hexValue? a <;> simp [ha]

/-- What is read as a byte: a digit or a plus, and then a digit. -/
theorem byte?_eq_some {a b : Char} {v : UInt8} (h : byte? a b = some v) :
    b ≠ '+' ∧ b.toLower = (hexDigit (v.toNat % 16)).toLower ∧
      (a ≠ '+' ↔ a.toLower = (hexDigit (v.toNat / 16)).toLower) := by
  rw [byte?_eq] at h
  obtain ⟨low, hlow, h⟩ := Option.bind_eq_some_iff.mp h
  obtain ⟨high, hhigh, rfl⟩ := Option.map_eq_some_iff.mp h
  obtain ⟨hlow16, hb, hlower⟩ := hexValue?_eq_some hlow
  have hhigh16 : high < 16 := by
    split at hhigh
    · cases hhigh
      decide
    · exact (hexValue?_eq_some hhigh).1
  have hv : (UInt8.ofNat (16 * high + low)).toNat = 16 * high + low := by
    rw [UInt8.toNat_ofNat', Nat.mod_eq_of_lt (by omega)]
  rw [hv, show (16 * high + low) / 16 = high by omega, show (16 * high + low) % 16 = low by omega]
  refine ⟨hb, hlower, ?_⟩
  by_cases ha : a = '+'
  · subst ha
    cases hhigh
    decide
  · rw [if_neg ha] at hhigh
    exact iff_of_true ha (hexValue?_eq_some hhigh).2.2

/-- Bytes are written like the digits that they were read from, but for the case, iff no plus stands
among these. -/
theorem sameAsciiLetters_hexDigits_iff : ∀ {body : List Char} {bytes : List UInt8},
    bytes? body = some bytes →
      (sameAsciiLetters body (hexDigits bytes) = true ↔ '+' ∉ body)
  | [], _, h => by
    cases h
    simp [sameAsciiLetters, hexDigits]
  | [_], _, h => by cases h
  | a :: b :: r, bytes, h => by
    obtain ⟨v, hv, h⟩ := Option.bind_eq_some_iff.mp h
    obtain ⟨rest, hrest, h⟩ := Option.bind_eq_some_iff.mp h
    cases h
    obtain ⟨hb, hlow, hhigh⟩ := byte?_eq_some hv
    have ih := sameAsciiLetters_hexDigits_iff hrest
    rw [hexDigits, sameAsciiLetters_cons, sameAsciiLetters_cons, Bool.and_eq_true, Bool.and_eq_true,
      decide_eq_true_eq, decide_eq_true_eq, ih, ← hhigh, List.mem_cons, List.mem_cons]
    simp [hlow, hb.symm, eq_comm]

/-! ## The ways of reading -/

/-- The ways in which a bare expression is read. -/
inductive Reading : List Char → Option Value → Prop
  /-- A text between quotes. -/
  | text (body : List Char) :
    Reading ('\'' :: body ++ ['\'']) (some (.text (String.ofList (collapse '\'' body))))
  /-- Digits between quotes behind an `X`. -/
  | blob {mark : Char} (hmark : mark = 'X' ∨ mark = 'x') (body : List Char) :
    Reading (mark :: '\'' :: body ++ ['\'']) ((bytes? body).map .blob)
  /-- Another value, which is written without quotes. -/
  | plain {y : List Char} {v : Value} (hquote : '\'' ∉ y) (htext : ∀ s, v ≠ .text s)
    (hblob : ∀ bytes, v ≠ .blob bytes) : Reading y (some v)
  /-- No literal. -/
  | nothing (y : List Char) : Reading y none

theorem blobBody?_eq_some {y body : List Char} (h : blobBody? y = some body) :
    ∃ mark, (mark = 'X' ∨ mark = 'x') ∧ y = mark :: '\'' :: body ++ ['\''] := by
  unfold blobBody? at h
  split at h
  · rw [← List.isSuffixOf?_eq_some_iff_append_eq.mp h]
    exact ⟨'X', .inl rfl, rfl⟩
  · rw [← List.isSuffixOf?_eq_some_iff_append_eq.mp h]
    exact ⟨'x', .inr rfl, rfl⟩
  · cases h

/-- A number is an integer or a double. -/
theorem number?_eq_some {s : List Char} {v : Value} (h : number? s = some v) :
    (∃ n, v = .int n) ∨ ∃ x, v = .float x := by
  unfold number? at h
  simp only at h
  split at h
  · rename_i n _
    exact .inl ⟨n, (Option.some.inj h).symm⟩
  · obtain ⟨x, -, rfl⟩ := Option.map_eq_some_iff.mp h
    exact .inr ⟨x, rfl⟩

/-- Every bare expression is read in one of these ways. -/
theorem reading_ofBareLiteral? (y : List Char) : Reading y (ofBareLiteral? y) := by
  have hword : ∀ {w : List Char}, sameAsciiLetters y w = true → '\'' ∉ w.map Char.toLower →
      '\'' ∉ y := fun hsame hw hy =>
    Bool.false_ne_true ((sameAsciiLetters_of_quote hy hw).symm.trans hsame)
  unfold ofBareLiteral?
  split
  · rename_i hnull
    exact .plain (hword hnull (by decide)) nofun nofun
  split
  · rename_i htrue
    exact .plain (hword htrue (by decide)) nofun nofun
  split
  · rename_i hfalse
    exact .plain (hword hfalse (by decide)) nofun nofun
  split
  · rename_i body hbody
    obtain ⟨mark, hmark, rfl⟩ := blobBody?_eq_some hbody
    exact .blob hmark body
  split
  · rename_i body hbody
    rw [enclosed?_eq_some hbody]
    exact .text body
  cases hnumber : number? y with
  | none => exact .nothing y
  | some v =>
    have hquote : '\'' ∉ y := fun hy => by simp [number?_of_quote hy] at hnumber
    rcases number?_eq_some hnumber with ⟨n, rfl⟩ | ⟨x, rfl⟩
    · exact .plain hquote nofun nofun
    · exact .plain hquote nofun nofun

/-! ## Faithful reading -/

/-- Nothing but a literal is read as a text or as bytes. The expression `y` is read as `read`: if
that is a text then `y` is its literal, if it is bytes then `y` is their literal but for the case of
its letters, and if `y` is anything else that holds a quote then it is not read. -/
structure Faithful (y : List Char) (read : Option Value) : Prop where
  /-- What is read as a text is its literal. -/
  text : ∀ s, read = some (.text s) → y = (Value.text s).literalChars
  /-- What is read as bytes is their literal, in either case. -/
  blob : ∀ bytes, read = some (.blob bytes) →
    sameAsciiLetters y (Value.blob bytes).literalChars = true
  /-- What holds a quote and is no literal is not read. -/
  other : '\'' ∈ y → (∀ s, y ≠ (Value.text s).literalChars) →
    (∀ bytes, sameAsciiLetters y (Value.blob bytes).literalChars = false) → read = none

/-- The expression is not mistaken for a literal. Where it stands between quotes, those inside come
in pairs, and where it is bytes, no plus is among the digits. -/
structure WellSpelled (y : List Char) : Prop where
  /-- Quotes come in pairs inside quotes. -/
  quotes : ∀ body, y = '\'' :: body ++ ['\''] → paired '\'' body = true
  /-- No plus stands for the first digit of a byte. -/
  digits : ∀ mark body, mark = 'X' ∨ mark = 'x' → y = mark :: '\'' :: body ++ ['\''] →
    (bytes? body).isSome = true → '+' ∉ body

/-- A text between quotes is the literal of what is read iff its quotes come in pairs. -/
theorem literalChars_collapse_iff (body : List Char) :
    '\'' :: body ++ ['\''] = (Value.text (String.ofList (collapse '\'' body))).literalChars ↔
      paired '\'' body = true := by
  show _ = quoted '\'' (String.ofList (collapse '\'' body)).toList ↔ _
  rw [paired_iff, quoted, String.toList_ofList]
  simp [eq_comm]

/-- Digits are those of the literal of what is read, but for the case, iff no plus is among them. -/
theorem sameAsciiLetters_literalChars_iff {mark : Char} (hmark : mark = 'X' ∨ mark = 'x')
    {body : List Char} {bytes : List UInt8} (h : bytes? body = some bytes) :
    sameAsciiLetters (mark :: '\'' :: body ++ ['\'']) (Value.blob bytes).literalChars = true ↔
      '+' ∉ body := by
  have hletter : mark.toLower = 'X'.toLower := by rcases hmark with rfl | rfl <;> rfl
  show sameAsciiLetters _ ('X' :: '\'' :: hexDigits bytes ++ ['\'']) = true ↔ _
  rw [← sameAsciiLetters_hexDigits_iff h, sameAsciiLetters_append_right, sameAsciiLetters_cons,
    sameAsciiLetters_cons]
  simp [hletter]

/-- A well-spelled expression is read faithfully, in whatever way it is read. -/
theorem Reading.faithful {y : List Char} {read : Option Value} (h : Reading y read)
    (hy : WellSpelled y) : Faithful y read := by
  cases h with
  | text body =>
    have hliteral := (literalChars_collapse_iff body).mpr (hy.quotes body rfl)
    refine ⟨fun s hs => ?_, nofun, fun _ hno _ => absurd hliteral (hno _)⟩
    cases hs
    exact hliteral
  | @blob mark hmark body =>
    have hsame : ∀ bytes, bytes? body = some bytes →
        sameAsciiLetters (mark :: '\'' :: body ++ ['\'']) (Value.blob bytes).literalChars = true :=
      fun bytes hbytes => (sameAsciiLetters_literalChars_iff hmark hbytes).mpr
        (hy.digits mark body hmark rfl (Option.isSome_of_eq_some hbytes))
    cases hbytes : bytes? body with
    | none => exact ⟨nofun, nofun, fun _ _ _ => rfl⟩
    | some bytes =>
      refine ⟨nofun, fun bytes' h => ?_, fun _ _ hno => ?_⟩
      · cases h
        exact hsame bytes hbytes
      · exact absurd (hsame bytes hbytes) (by rw [hno bytes]; decide)
  | plain hquote htext hblob =>
    exact ⟨fun s hs => absurd (Option.some.inj hs) (htext s),
      fun bytes hbytes => absurd (Option.some.inj hbytes) (hblob bytes),
      fun hmem => absurd hmem hquote⟩
  | nothing => exact ⟨nofun, nofun, fun _ _ _ => rfl⟩

/-- **A default is read faithfully iff it is well spelled** without its blanks and its cast: no
quote stands alone in it between quotes, and no plus among the digits of bytes. -/
theorem faithful_ofLiteral?_iff (x : List Char) :
    Faithful (bare x) (ofLiteral? x) ↔ WellSpelled (bare x) := by
  rw [ofLiteral?_eq]
  constructor
  · intro h
    refine ⟨fun body hbody => ?_, fun mark body hmark hbody hread => ?_⟩
    · rw [hbody] at h
      exact (literalChars_collapse_iff body).mp (h.text _ (ofBareLiteral?_quoted body))
    · obtain ⟨bytes, hbytes⟩ := Option.isSome_iff_exists.mp hread
      have hmarked := ofBareLiteral?_marked hmark body
      rw [hbytes] at hmarked
      rw [hbody] at h
      exact (sameAsciiLetters_literalChars_iff hmark hbytes).mp (h.blob _ hmarked)
  · exact (reading_ofBareLiteral? (bare x)).faithful

/-- A concatenation of two texts is read as one text, whose literal is another expression. -/
theorem unfaithful_concatenation :
    ¬ Faithful (bare "'a'||'b'".toList) (ofLiteral? "'a'||'b'".toList) := fun h =>
  absurd (h.text "a'||'b" rfl) (by decide)

example : ofLiteral? "X'+F'".toList = some (.blob [15]) := rfl

end Value

end SchemaMigration
