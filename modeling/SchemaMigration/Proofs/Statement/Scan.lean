import SchemaMigration.Identifier
import SchemaMigration.Statement.Piece
import Mathlib.Data.List.Basic

/-!
# Cutting a statement at its quotes

The text of a statement is read back character by character. Between double quotes stands a name,
between single quotes a text, and in both a doubled quote stands for one; everything else is bare.

* `tokens?` cuts a text; it fails where a quote is not closed.
* `Clean`: pieces of proper words and names, with a blank or a mark between any two.
* **`Clean.tokens?_sqlText`**: the text of clean pieces is cut into the tokens of the pieces.
* `Clean.literals_tokens`: the single-quoted tokens of clean pieces are their text and byte
  literals.
-/

namespace SchemaMigration

/-- A part of a statement's text. -/
inductive Token where
  /-- A character outside of quotes. -/
  | bare (c : Char)
  /-- What stands between double quotes. -/
  | name (s : List Char)
  /-- What stands between single quotes. -/
  | text (s : List Char)
deriving DecidableEq

namespace Token

/-- One of the two quotes. -/
def isQuote (c : Char) : Bool :=
  c == '"' || c == '\''

/-- A quote, or the first character of a placeholder. -/
def isSpecial (c : Char) : Bool :=
  isQuote c || c == '?' || c == '$'

/-- The token between two quotes of a kind. -/
def quoted (quote : Char) (s : List Char) : Token :=
  if quote = '"' then .name s else .text s

/-- Where the reading of a text stands. -/
inductive Mode where
  /-- Outside of quotes. -/
  | outside
  /-- After an opening quote and what was read since. -/
  | within (quote : Char) (read : List Char)
  /-- After a quote that closes the token, unless it is doubled. -/
  | closing (quote : Char) (read : List Char)

/-- The tokens of a text. A quote inside a token is written twice. -/
def scan : Mode → List Char → Option (List Token)
  | .outside, [] => some []
  | .within _ _, [] => none
  | .closing quote read, [] => some [quoted quote read]
  | .outside, c :: r =>
    if isQuote c then scan (.within c []) r else (scan .outside r).map (.bare c :: ·)
  | .within quote read, c :: r =>
    if c = quote then scan (.closing quote read) r else scan (.within quote (read ++ [c])) r
  | .closing quote read, c :: r =>
    if c = quote then scan (.within quote (read ++ [quote])) r
    else if isQuote c then (scan (.within c []) r).map (quoted quote read :: ·)
    else (scan .outside r).map fun ts => quoted quote read :: .bare c :: ts

/-- The tokens of a statement's text, if every quote is closed. -/
def tokens? (sql : String) : Option (List Token) :=
  scan .outside sql.toList

/-- The single-quoted tokens, each with whether it follows an `X`. -/
def literals (marked : Bool) : List Token → List (Bool × List Char)
  | [] => []
  | .bare c :: r => literals (c == 'X') r
  | .name _ :: r => literals false r
  | .text s :: r => (marked, s) :: literals false r

/-! ## Bare characters and quoted tokens -/

theorem scan_outside_cons (c : Char) (r : List Char) : scan .outside (c :: r) =
    if isQuote c then scan (.within c []) r else (scan .outside r).map (.bare c :: ·) :=
  rfl

theorem scan_within_cons (quote : Char) (read : List Char) (c : Char) (r : List Char) :
    scan (.within quote read) (c :: r) =
      if c = quote then scan (.closing quote read) r else scan (.within quote (read ++ [c])) r :=
  rfl

theorem scan_closing_cons (quote : Char) (read : List Char) (c : Char) (r : List Char) :
    scan (.closing quote read) (c :: r) =
      if c = quote then scan (.within quote (read ++ [quote])) r
      else if isQuote c then (scan (.within c []) r).map (quoted quote read :: ·)
      else (scan .outside r).map fun ts => quoted quote read :: .bare c :: ts :=
  rfl

theorem scan_bare {s : List Char} (h : ∀ c ∈ s, isQuote c = false) (r : List Char) :
    scan .outside (s ++ r) = (scan .outside r).map (s.map Token.bare ++ ·) := by
  induction s with
  | nil => simp
  | cons c s ih =>
    rw [List.forall_mem_cons] at h
    rw [List.cons_append, scan_outside_cons, if_neg (by simp [h.1]), ih h.2, Option.map_map]
    rfl

/-- What was doubled is read once, up to the closing quote. -/
theorem scan_double (quote : Char) (s r read : List Char) :
    scan (.within quote read) (Text.double quote s ++ quote :: r) =
      scan (.closing quote (read ++ s)) r := by
  induction s generalizing read with
  | nil => simp [Text.double, scan]
  | cons c s ih =>
    by_cases hc : c = quote
    · subst hc
      rw [Text.double_cons_quote, List.cons_append, List.cons_append, scan_within_cons, if_pos rfl,
        scan_closing_cons, if_pos rfl, ih, List.append_assoc, List.singleton_append]
    · rw [Text.double_cons_of_ne hc, List.cons_append, scan_within_cons, if_neg hc, ih,
        List.append_assoc, List.singleton_append]

/-- A closing quote is the last one, unless the same quote follows. -/
theorem scan_closing (quote : Char) (s : List Char) {r : List Char}
    (h : ∀ c ∈ r.head?, isQuote c = false) (hq : isQuote quote = true) :
    scan (.closing quote s) r = (scan .outside r).map (quoted quote s :: ·) := by
  cases r with
  | nil => rfl
  | cons c r =>
    have hc : isQuote c = false := h c rfl
    have hne : c ≠ quote := by
      rintro rfl
      rw [hq] at hc
      cases hc
    rw [scan_closing_cons, scan_outside_cons, if_neg hne, if_neg (by simp [hc]),
      if_neg (by simp [hc]), Option.map_map]
    rfl

/-- A quoted text is one token, whatever it holds. -/
theorem scan_quoted {quote : Char} (hq : isQuote quote = true) (s : List Char) {r : List Char}
    (h : ∀ c ∈ r.head?, isQuote c = false) :
    scan .outside (Text.quoted quote s ++ r) = (scan .outside r).map (quoted quote s :: ·) := by
  have htext : Text.quoted quote s ++ r = quote :: (Text.double quote s ++ quote :: r) := by
    simp [Text.quoted]
  rw [htext, scan_outside_cons, if_pos hq, scan_double, List.nil_append, scan_closing quote s h hq]

theorem literals_bare (s : List Char) (marked : Bool) (ts : List Token) :
    literals marked (s.map Token.bare ++ ts) =
      literals ((s.getLast?.map (· == 'X')).getD marked) ts := by
  induction s generalizing marked with
  | nil => rfl
  | cons c s ih =>
    show literals (c == 'X') (s.map Token.bare ++ ts) = _
    rw [ih, List.getLast?_cons]
    cases s.getLast? <;> rfl

end Token

open Token

/-! ## Values without quotes -/

/-- Characters that are looked through one by one. -/
theorem forall_mem_of_all {p : Char → Bool} {s : List Char} (h : (s.all fun c => !p c) = true) :
    ∀ c ∈ s, p c = false := by
  simpa using h

theorem isSpecial_of_isDigit {c : Char} (h : Decimal.isDigit c = true) :
    isSpecial c = false := by
  by_contra hspecial
  simp only [isSpecial, isQuote, Bool.not_eq_false, Bool.or_eq_true, beq_iff_eq] at hspecial
  rcases hspecial with ((rfl | rfl) | rfl) | rfl <;> exact absurd h (by decide)

theorem isQuote_of_isSpecial {c : Char} (h : isSpecial c = false) : isQuote c = false := by
  simp only [isSpecial, Bool.or_eq_false_iff] at h
  exact h.1.1

theorem digits_quoteFree (n : Nat) : ∀ c ∈ Decimal.digits n, isQuote c = false := fun c hc =>
  isQuote_of_isSpecial
    (isSpecial_of_isDigit (List.all_eq_true.mp (Decimal.all_isDigit_digits n) c hc))

/-- What holds of digits and of the minus sign holds of the characters of an integer. -/
theorem forall_mem_showInt {P : Char → Prop} (hdigits : ∀ n, ∀ c ∈ Decimal.digits n, P c)
    (hminus : P '-') (n : Int) : ∀ c ∈ Decimal.showInt n, P c := by
  intro c hc
  cases n with
  | ofNat n => exact hdigits n c hc
  | negSucc n =>
    rcases List.mem_cons.mp hc with rfl | hc
    · exact hminus
    · exact hdigits _ c hc

theorem showInt_quoteFree (n : Int) : ∀ c ∈ Decimal.showInt n, isQuote c = false :=
  forall_mem_showInt digits_quoteFree rfl n

theorem isQuote_hexDigit : ∀ n, n < 16 → isQuote (Value.hexDigit n) = false := by
  decide

theorem hexDigits_quoteFree (bytes : List UInt8) :
    ∀ c ∈ Value.hexDigits bytes, isQuote c = false := by
  induction bytes with
  | nil => simp [Value.hexDigits]
  | cons b r ih =>
    have hb := b.toNat_lt
    unfold Value.hexDigits
    rw [List.forall_mem_cons, List.forall_mem_cons]
    exact ⟨isQuote_hexDigit _ (by omega), isQuote_hexDigit _ (by omega), ih⟩

namespace Layout

section Characters

variable {P : Char → Prop} (hdigits : ∀ n, ∀ c ∈ Decimal.digits n, P c)
  (hmarks : ∀ c ∈ "0.-e".toList, P c)

include hdigits hmarks

theorem forall_mem_positional (d : Digits) : ∀ c ∈ positional d, P c := by
  have hzero : P '0' := hmarks '0' (by decide)
  have hpoint : P '.' := hmarks '.' (by decide)
  have hzeros : ∀ n, ∀ c ∈ List.replicate n '0', P c := by
    intro n c hc
    rwa [List.eq_of_mem_replicate hc]
  unfold positional
  simp only
  split
  · simp only [List.forall_mem_append, List.forall_mem_cons]
    exact ⟨⟨⟨hzero, hpoint, List.forall_mem_nil _⟩, hzeros _⟩, hdigits d.value⟩
  · have hpadded : ∀ n, ∀ c ∈ Decimal.digits d.value ++ List.replicate n '0', P c := by
      intro n
      rw [List.forall_mem_append]
      exact ⟨hdigits d.value, hzeros n⟩
    simp only [List.forall_mem_append, List.forall_mem_singleton]
    refine ⟨⟨fun c hc => hpadded _ c (List.mem_of_mem_take hc), hpoint⟩, ?_⟩
    unfold fractionText
    split
    · exact List.forall_mem_singleton.mpr hzero
    · exact fun c hc => hpadded _ c (List.mem_of_mem_drop hc)

theorem forall_mem_scientific {layout : Layout} (hplus : ∀ c ∈ layout.plus.toList, P c)
    (d : Digits) : ∀ c ∈ layout.scientific d, P c := by
  have hpoint : P '.' := hmarks '.' (by decide)
  unfold scientific
  simp only [List.forall_mem_append, List.forall_mem_singleton]
  refine ⟨⟨⟨⟨fun c hc => hdigits _ c (List.mem_of_mem_take hc), ?_⟩, hmarks 'e' (by decide)⟩, ?_⟩,
    forall_mem_showInt hdigits (hmarks '-' (by decide)) _⟩
  · split
    · split
      · rw [List.forall_mem_cons]
        exact ⟨hpoint, List.forall_mem_singleton.mpr (hmarks '0' (by decide))⟩
      · exact List.forall_mem_nil _
    · rw [List.forall_mem_cons]
      exact ⟨hpoint, fun c hc => hdigits _ c (List.mem_of_mem_drop hc)⟩
  · split
    · exact List.forall_mem_nil _
    · exact hplus

/-- What holds of digits and of the marks in numbers holds of the characters of a double, if it
holds of those of the words for what is no finite number. -/
theorem forall_mem_write {layout : Layout} (hplus : ∀ c ∈ layout.plus.toList, P c)
    (hinf : ∀ c ∈ "inf".toList, P c) (x : Binary64)
    (hnan : x.isNaN = true → ∀ c ∈ "NaN".toList, P c) : ∀ c ∈ layout.write x, P c := by
  unfold write
  split
  · rename_i h
    exact hnan h
  · have hsign : ∀ c ∈ (if x.isNegative then ['-'] else []), P c := by
      split
      · exact List.forall_mem_singleton.mpr (hmarks '-' (by decide))
      · exact List.forall_mem_nil _
    have hzero : P '0' := hmarks '0' (by decide)
    simp only
    split
    · rw [List.forall_mem_append]
      exact ⟨hsign, hinf⟩
    · split
      · rw [List.forall_mem_append]
        refine ⟨hsign, List.forall_mem_cons.mpr ⟨hzero, List.forall_mem_cons.mpr
          ⟨hmarks '.' (by decide), List.forall_mem_singleton.mpr hzero⟩⟩⟩
      · rw [List.forall_mem_append]
        refine ⟨hsign, ?_⟩
        unfold place
        simp only
        split
        · exact forall_mem_positional hdigits hmarks _
        · exact forall_mem_scientific hdigits hmarks hplus _

end Characters

/-- No double is written with a quote, if no exponent is. -/
theorem write_quoteFree {layout : Layout} (h : ∀ c ∈ layout.plus.toList, isQuote c = false)
    (x : Binary64) : ∀ c ∈ layout.write x, isQuote c = false :=
  forall_mem_write digits_quoteFree (forall_mem_of_all (by decide)) h
    (forall_mem_of_all (by decide)) x fun _ => forall_mem_of_all (by decide)

end Layout

/-! ## Pieces -/

/-- The tokens of a value's literal. -/
def Value.tokens : Value → List Token
  | .text s => [.text s.toList]
  | .blob bytes => [.bare 'X', .text (hexDigits bytes)]
  | v => v.literalChars.map .bare

/-- The single-quoted token of a value's literal: a text, or bytes after an `X`. -/
def Value.quoted? : Value → Option (Bool × List Char)
  | .text s => some (false, s.toList)
  | .blob bytes => some (true, hexDigits bytes)
  | _ => none

/-- A blank or a mark: no word goes on across it. -/
def isBreak (c : Char) : Bool :=
  c == ' ' || c == ',' || c == '(' || c == ')'

namespace Piece

/-- The tokens of a piece, the next placeholder being at the position. -/
def tokens (d : Dialect) (position : Nat) : Piece → List Token
  | .words s => s.toList.map .bare
  | .name s => [.name s.toList]
  | .literal v => v.tokens
  | .parameter _ => (d.placeholder position).toList.map .bare

/-- The value that a piece writes into the text. -/
def literal? : Piece → Option Value
  | .literal v => some v
  | _ => none

/-- Words hold neither quotes nor placeholders, and a name holds the characters of identifiers. -/
def isProper : Piece → Bool
  | .words s => s.toList.all fun c => !isSpecial c
  | .name s => s.toList.all Identifier.isRest
  | _ => true

/-- The piece is words that start with a break. -/
def opens : Piece → Bool
  | .words s => s.toList.head?.any isBreak
  | _ => false

/-- The piece is words that end with a break. -/
def closes : Piece → Bool
  | .words s => s.toList.getLast?.any isBreak
  | _ => false

end Piece

/-- The tokens of pieces, the first placeholder being at the position. -/
def tokens (d : Dialect) (position : Nat) : List Piece → List Token
  | [] => []
  | p :: ps => p.tokens d position ++ tokens d (positionAfter position p) ps

/-- Pieces that cannot run into each other: words and names are proper, and of two pieces that
follow each other the first ends with a break or the second starts with one. -/
structure Clean (ps : List Piece) : Prop where
  /-- Every piece is proper. -/
  proper : ∀ p ∈ ps, p.isProper = true
  /-- A break stands between any two pieces. -/
  apart : ps.IsChain fun p q => p.closes = true ∨ q.opens = true

theorem placeholder_quoteFree (d : Dialect) (n : Nat) :
    ∀ c ∈ (d.placeholder n).toList, isQuote c = false := by
  cases d with
  | sqlite =>
    have h : ∀ c ∈ "?".toList, isQuote c = false :=
      forall_mem_of_all (by decide)
    exact h
  | postgres =>
    simp only [Dialect.placeholder, Decimal.showNat, String.toList_append, String.toList_ofList,
      List.forall_mem_append]
    exact ⟨forall_mem_of_all (by decide), digits_quoteFree n⟩

/-- A value that is no text and no byte string is written without quotes. -/
theorem literalChars_quoteFree {v : Value} (h : v.quoted? = none) :
    v.tokens = v.literalChars.map .bare ∧ ∀ c ∈ v.literalChars, isQuote c = false := by
  cases v with
  | null => exact ⟨rfl, forall_mem_of_all (by decide)⟩
  | bool b => cases b <;> exact ⟨rfl, forall_mem_of_all (by decide)⟩
  | int n => exact ⟨rfl, showInt_quoteFree _⟩
  | float x => exact ⟨rfl, Layout.write_quoteFree (forall_mem_of_all (by decide)) x⟩
  | text s => cases h
  | blob bytes => cases h

theorem isQuote_of_isBreak {c : Char} (h : isBreak c = true) :
    isQuote c = false ∧ (c == 'X') = false := by
  simp only [isBreak, Bool.or_eq_true, beq_iff_eq] at h
  rcases h with ((rfl | rfl) | rfl) | rfl <;> exact ⟨rfl, rfl⟩

theorem isBreak_of_opens {p : Piece} (h : p.opens = true) (d : Dialect) (n : Nat)
    (r : List Char) : ∀ c ∈ ((p.sqlText d n).toList ++ r).head?, isBreak c = true := by
  cases p with
  | words s =>
    simp only [Piece.opens, Option.any_eq_true] at h
    obtain ⟨c, hc, hbreak⟩ := h
    intro e he
    simp only [Piece.sqlText, List.head?_append, hc, Option.some_or, Option.mem_some_iff] at he
    rw [← he]
    exact hbreak
  | name s => cases h
  | literal v => cases h
  | parameter v => cases h

theorem double_of_quoteFree {s : List Char} (h : ∀ c ∈ s, isQuote c = false) {quote : Char}
    (hq : isQuote quote = true) : Text.double quote s = s := by
  induction s with
  | nil => rfl
  | cons c s ih =>
    rw [List.forall_mem_cons] at h
    have hne : c ≠ quote := by
      rintro rfl
      rw [hq] at h
      exact absurd h.1 (by simp)
    rw [Text.double_cons_of_ne hne, ih h.2]

/-- A value's literal is cut into its tokens, unless a quote follows. -/
theorem scan_literal (v : Value) {r : List Char} (h : ∀ c ∈ r.head?, isQuote c = false) :
    scan .outside (v.literalChars ++ r) = (scan .outside r).map (v.tokens ++ ·) := by
  by_cases hv : v.quoted? = none
  · obtain ⟨htokens, hfree⟩ := literalChars_quoteFree hv
    rw [htokens, scan_bare hfree]
  · cases v with
    | text s => exact scan_quoted rfl s.toList h
    | blob bytes =>
      have htext : Value.literalChars (.blob bytes) ++ r =
          'X' :: (Text.quoted '\'' (Value.hexDigits bytes) ++ r) := by
        rw [Text.quoted, double_of_quoteFree (hexDigits_quoteFree bytes) rfl]
        rfl
      rw [htext, scan_outside_cons, if_neg (by decide), scan_quoted rfl _ h, Option.map_map]
      rfl
    | null => exact absurd rfl hv
    | bool b => exact absurd rfl hv
    | int n => exact absurd rfl hv
    | float x => exact absurd rfl hv

namespace Clean

variable {ps : List Piece} {d : Dialect}

theorem tail {p : Piece} (h : Clean (p :: ps)) : Clean ps :=
  ⟨fun q hq => h.proper q (List.mem_cons_of_mem p hq), h.apart.of_cons⟩

/-- What follows a piece that does not end with a break starts with one. -/
theorem opens_of_cons {p q : Piece} (h : Clean (p :: q :: ps)) (hp : p.closes = false) :
    q.opens = true := by
  have hapart := (List.isChain_cons_cons.mp h.apart).1
  rw [hp] at hapart
  simpa using hapart

/-- A break follows a piece that does not end with one. -/
theorem head_isBreak {p : Piece} (h : Clean (p :: ps)) (hp : p.closes = false) (n : Nat) :
    ∀ c ∈ (sqlText d n ps).toList.head?, isBreak c = true := by
  cases ps with
  | nil => simp [sqlText]
  | cons q ps =>
    show ∀ c ∈ (q.sqlText d n ++ sqlText d (positionAfter n q) ps).toList.head?, _
    rw [String.toList_append]
    exact isBreak_of_opens (h.opens_of_cons hp) d n _

theorem head_quoteFree {p : Piece} (h : Clean (p :: ps)) (hp : p.closes = false) (n : Nat) :
    ∀ c ∈ (sqlText d n ps).toList.head?, isQuote c = false := fun c hc =>
  (isQuote_of_isBreak (h.head_isBreak hp n c hc)).1

/-- **The text of clean pieces is cut into their tokens.** -/
theorem scan_sqlText : ∀ {ps : List Piece}, Clean ps → ∀ n,
    scan .outside (sqlText d n ps).toList = some (tokens d n ps)
  | [], _, _ => rfl
  | p :: ps, h, n => by
    have ih := scan_sqlText h.tail (positionAfter n p)
    have htext : (sqlText d n (p :: ps)).toList =
        (p.sqlText d n).toList ++ (sqlText d (positionAfter n p) ps).toList :=
      String.toList_append
    have hproper := h.proper p List.mem_cons_self
    rw [htext]
    cases p with
    | words s =>
      have hspecial : ∀ c ∈ s.toList, isSpecial c = false := by
        simpa [Piece.isProper] using hproper
      have hfree : ∀ c ∈ s.toList, isQuote c = false := fun c hc =>
        isQuote_of_isSpecial (hspecial c hc)
      rw [Piece.sqlText, scan_bare hfree, ih]
      rfl
    | name s =>
      rw [Piece.sqlText, quoteName, String.toList_ofList,
        scan_quoted rfl s.toList (h.head_quoteFree rfl _), ih]
      rfl
    | literal v =>
      rw [Piece.sqlText, Value.literal, String.toList_ofList,
        scan_literal v (h.head_quoteFree rfl _), ih]
      rfl
    | parameter v =>
      rw [Piece.sqlText, scan_bare (placeholder_quoteFree d n), ih]
      rfl

theorem tokens?_sqlText (h : Clean ps) (n : Nat) :
    tokens? (sqlText d n ps) = some (tokens d n ps) :=
  h.scan_sqlText n

/-- Every double-quoted token is a name piece. -/
theorem isRest_of_name_mem : ∀ {ps : List Piece}, Clean ps → ∀ n {s : List Char},
    .name s ∈ tokens d n ps → ∀ c ∈ s, Identifier.isRest c = true
  | [], _, _, _, hs => absurd hs List.not_mem_nil
  | p :: ps, h, n, s, hs => by
    rcases List.mem_append.mp hs with hs | hs
    · cases p with
      | words w => simp [Piece.tokens] at hs
      | name w =>
        have hproper := h.proper _ List.mem_cons_self
        simp only [Piece.tokens, List.mem_singleton, Token.name.injEq] at hs
        subst hs
        simpa [Piece.isProper] using hproper
      | literal v => cases v <;> simp [Piece.tokens, Value.tokens] at hs
      | parameter v => simp [Piece.tokens] at hs
    · exact isRest_of_name_mem h.tail _ hs

/-- The single-quoted tokens are those of the literals, which follow no other `X`. -/
theorem literals_tokens : ∀ {ps : List Piece}, Clean ps → ∀ n marked,
    (∀ v, ps.head? = some (.literal v) → marked = false) →
      literals marked (tokens d n ps) = (ps.filterMap Piece.literal?).filterMap Value.quoted?
  | [], _, _, _, _ => rfl
  | p :: ps, h, n, marked, hmarked => by
    have ih := literals_tokens h.tail (positionAfter n p)
    -- a literal that comes next follows words that end with a break
    have hnext : p.closes = false → ∀ v, ps.head? ≠ some (.literal v) := by
      intro hp v hv
      obtain ⟨r, rfl⟩ := List.head?_eq_some_iff.mp hv
      exact absurd (h.opens_of_cons hp) (by simp [Piece.opens])
    show literals marked (p.tokens d n ++ tokens d (positionAfter n p) ps) = _
    cases p with
    | words s =>
      rw [Piece.tokens, literals_bare, ih _ ?_]
      · rfl
      · intro v hv
        cases hlast : s.toList.getLast? with
        | none =>
          have hclosed : (Piece.words s).closes = false := by simp [Piece.closes, hlast]
          exact absurd hv (hnext hclosed v)
        | some c =>
          by_cases hbreak : isBreak c = true
          · exact (isQuote_of_isBreak hbreak).2
          · have hclosed : (Piece.words s).closes = false := by
              simpa [Piece.closes, hlast] using hbreak
            exact absurd hv (hnext hclosed v)
    | name s =>
      show literals false (tokens d n ps) = _
      exact ih false fun v hv => absurd hv (hnext rfl v)
    | literal v =>
      have hrest : ∀ marked, literals marked (tokens d n ps) =
          (ps.filterMap Piece.literal?).filterMap Value.quoted? :=
        fun marked => ih marked fun v hv => absurd hv (hnext rfl v)
      have hfirst : marked = false := hmarked v rfl
      subst hfirst
      by_cases hv : v.quoted? = none
      · rw [Piece.tokens, (literalChars_quoteFree hv).1, literals_bare]
        show literals _ (tokens d n ps) = _
        rw [hrest]
        simp [Piece.literal?, hv]
      · cases v with
        | text s => exact congrArg ((false, s.toList) :: ·) (hrest false)
        | blob bytes => exact congrArg ((true, Value.hexDigits bytes) :: ·) (hrest false)
        | null => exact absurd rfl hv
        | bool b => exact absurd rfl hv
        | int n => exact absurd rfl hv
        | float x => exact absurd rfl hv
    | parameter v =>
      rw [Piece.tokens, literals_bare, ih _ fun v hv => absurd hv (hnext rfl v)]
      rfl

end Clean

end SchemaMigration
