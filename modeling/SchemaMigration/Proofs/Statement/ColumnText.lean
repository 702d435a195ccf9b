import SchemaMigration.Proofs.Statement.TableText

/-!
# Columns read off their definitions

What stands behind the name of a column in a `CREATE TABLE` of SQLite is its type, and then its
constraints: whether it is the key, and its default. The catalog keeps the type and the default as
they were written. Here both are read off the lexemes of the definition, and spelled out again.

* `Lexeme.spell`: the text of lexemes; **`spell_gather`**: reading lexemes loses nothing but blanks.
* `typeText`, `defaultText?`: the type and the default in a definition.
* `LegibleType`: a type without blanks that does not read like a constraint; `legible_typeName`: the
  types of SQLite are such.
* **`typeText_lexemes`**, **`defaultText?_lexemes`**: the type and the default of a column clause
  are read back as they were written.
-/

namespace SchemaMigration

open Lexeme

/-! ## Spelling -/

/-- The characters of a token. -/
def Token.spelling : Token → List Char
  | .bare c => [c]
  | .name s => Text.quoted '"' s
  | .text s => Text.quoted '\'' s

theorem Token.flatMap_spelling_bare (s : List Char) : (s.map Token.bare).flatMap spelling = s := by
  rw [List.flatMap_map]
  exact List.flatMap_singleton' s

namespace Lexeme

/-- The characters of a lexeme. -/
def spelling : Lexeme → List Char
  | .word s => s.toList
  | .name s => Text.quoted '"' s.toList
  | .text s => Text.quoted '\'' s.toList
  | .mark c => [c]
  | .value v => v.literalChars

/-- What stands between a lexeme and those after it: two words would run together. -/
def gap (s : Lexeme) (r : List Lexeme) : List Char :=
  if s.word?.isSome && (r.head?.bind word?).isSome then [' '] else []

/-- The text of lexemes, with a blank between two words and none elsewhere. -/
def spell : List Lexeme → List Char
  | [] => []
  | s :: r => s.spelling ++ (s.gap r ++ spell r)

theorem spell_flush_append (read : List Char) {r : List Lexeme} (h : r.head?.bind word? = none) :
    spell (flush read ++ r) = read ++ spell r := by
  unfold flush
  split
  · rename_i hread
    rw [List.isEmpty_iff.mp hread]
    rfl
  · rw [List.singleton_append, spell, gap, h]
    simp [spelling]

/-- **Reading lexemes loses nothing but blanks**, by induction on the tokens. -/
theorem spell_gather {ts : List Token} (h : Token.bare ' ' ∉ ts) (read : List Char) :
    spell (gather read ts) = read ++ ts.flatMap Token.spelling := by
  induction ts generalizing read with
  | nil => simpa [gather, spell] using spell_flush_append read (r := []) rfl
  | cons t ts ih =>
    obtain ⟨ht, hts⟩ := not_or.mp (List.mem_cons.not.mp h)
    have ih := ih hts
    rw [List.flatMap_cons]
    cases t with
    | name s =>
      rw [gather, spell_flush_append _ rfl, spell, ih, spelling, String.toList_ofList]
      rfl
    | text s =>
      rw [gather, spell_flush_append _ rfl, spell, ih, spelling, String.toList_ofList]
      rfl
    | bare c =>
      have hblank : c ≠ ' ' := fun hc => ht (congrArg Token.bare hc.symm)
      rw [gather_bare, if_neg hblank]
      split
      · rw [spell_flush_append _ rfl, spell, ih]
        rfl
      · rw [ih, List.append_assoc]
        rfl

/-- The literal of a value is read and spelled out again. -/
theorem spell_literal (v : Value) : spell (gather [] v.tokens) = v.literalChars := by
  have hblank : Token.bare ' ' ∉ v.tokens := fun h => absurd (of_bare_mem_tokens h).1 (by decide)
  rw [spell_gather hblank, List.nil_append]
  cases v with
  | text s => exact List.append_nil _
  | blob bytes =>
    show 'X' :: (Text.quoted '\'' (Value.hexDigits bytes) ++ []) = _
    rw [Text.quoted, double_of_quoteFree (hexDigits_quoteFree bytes) rfl, List.append_nil]
    rfl
  | _ => exact Token.flatMap_spelling_bare _

/-! ## Types and defaults -/

/-- The lexeme starts a constraint of a column. -/
def startsConstraint (s : Lexeme) : Bool :=
  s == .word "PRIMARY" || s == .word "DEFAULT"

/-- The type in the definition of a column: what stands before the constraints. -/
def typeText (definition : List Lexeme) : String :=
  String.ofList (spell (definition.takeWhile fun s => !s.startsConstraint))

/-- The default in the definition of a column: what stands behind its word. -/
def defaultText? (definition : List Lexeme) : Option String :=
  match definition.dropWhile fun s => s != .word "DEFAULT" with
  | [] => none
  | _ :: r => some (String.ofList (spell r))

/-- A default is its word and the literal. -/
theorem unbound_defaultPieces (d : Dialect) (default : Option Value) :
    unbound d 1 (defaultPieces default) =
      match default with
      | some v => .word "DEFAULT" :: gather [] v.tokens
      | none => [] := by
  cases default with
  | none => rfl
  | some v =>
    show unbound d 1 (Piece.words " DEFAULT " :: [Piece.literal v]) = _
    rw [unbound_words]
    exact congrArg (Lexeme.word "DEFAULT" :: ·) (List.append_nil _)

end Lexeme

/-- A type that is written without blanks and does not read like a constraint. -/
structure LegibleType (typeName : String) : Prop where
  /-- There is no blank in it. -/
  unbroken : ' ' ∉ typeName.toList
  /-- No lexeme of it starts a constraint. -/
  unconstrained : ∀ s ∈ gather [] (typeName.toList.map Token.bare), s.startsConstraint = false

namespace ColumnClause

variable {c : ColumnClause}

/-- What stands behind the type starts with a constraint. -/
theorem startsConstraint_of_mem_head? (c : ColumnClause) {s : Lexeme}
    (h : s ∈ (c.attributeLexemes .sqlite ++ unbound .sqlite 1 (defaultPieces c.default)).head?) :
    s.startsConstraint = true := by
  rw [unbound_defaultPieces, attributeLexemes] at h
  cases hkey : c.isKey with
  | true =>
    rw [hkey] at h
    cases h
    rfl
  | false =>
    rw [hkey] at h
    cases hdefault : c.default with
    | none =>
      rw [hdefault] at h
      cases h
    | some v =>
      rw [hdefault] at h
      cases h
      rfl

/-- **The type of a column clause is read back** as it was written. -/
theorem typeText_lexemes (h : LegibleType c.typeName) :
    typeText (c.lexemes .sqlite) = c.typeName := by
  have htype : (c.lexemes .sqlite).takeWhile (fun s => !s.startsConstraint) =
      gather [] (c.typeName.toList.map Token.bare) := by
    have hrest : (c.attributeLexemes .sqlite ++
        unbound .sqlite 1 (defaultPieces c.default)).takeWhile (fun s => !s.startsConstraint) =
          [] := by
      refine List.takeWhile_eq_nil_iff.mpr fun hl => ?_
      rw [List.get_eq_getElem, c.startsConstraint_of_mem_head?
        (List.head?_eq_getElem?.trans (List.getElem?_eq_getElem hl))]
      decide
    rw [lexemes, List.takeWhile_append_of_pos fun s hs => by simp [h.unconstrained s hs], hrest,
      List.append_nil]
  have hblank : Token.bare ' ' ∉ c.typeName.toList.map Token.bare := by
    simpa using h.unbroken
  rw [typeText, htype, spell_gather hblank, Token.flatMap_spelling_bare, List.nil_append,
    String.ofList_toList]

/-- **The default of a column clause is read back** as it was written. -/
theorem defaultText?_lexemes (h : LegibleType c.typeName) :
    defaultText? (c.lexemes .sqlite) = c.default.map Value.literal := by
  have htype : ∀ s ∈ gather [] (c.typeName.toList.map Token.bare),
      (s != .word "DEFAULT") = true := by
    intro s hs
    have hconstraint := h.unconstrained s hs
    rw [startsConstraint, Bool.or_eq_false_iff] at hconstraint
    rw [bne, hconstraint.2]
    rfl
  have hattributes : ∀ s ∈ c.attributeLexemes .sqlite, (s != .word "DEFAULT") = true := by
    simp only [attributeLexemes]
    cases c.isKey <;> decide
  rw [defaultText?, lexemes, List.dropWhile_append_of_pos htype,
    List.dropWhile_append_of_pos hattributes, unbound_defaultPieces]
  cases c.default with
  | none => rfl
  | some v =>
    show some (String.ofList (spell (gather [] v.tokens))) = some v.literal
    rw [spell_literal]
    rfl

end ColumnClause

/-! ## Types of SQLite -/

theorem legible_integer : LegibleType "INTEGER" :=
  ⟨by decide, by decide⟩

/-- A type with a size in parentheses is legible if its name is. -/
theorem legible_sizedName {plain sized : String} (hplain : LegibleType plain)
    (hsized : LegibleType sized) (size : Option UInt32) :
    LegibleType (Dialect.sizedName plain sized size) := by
  cases size with
  | none => exact hplain
  | some n =>
    have hbreak : ∀ c ∈ Decimal.digits n.toNat, isBreak c = false := fun c hc =>
      (quiet_digits n.toNat c hc).1
    -- both words have an `A` in them, and a size is made of digits
    have hdigits : ∀ s ∈ flush (Decimal.digits n.toNat), s.startsConstraint = false := by
      intro s hs
      by_contra hconstraint
      have hdigit : ∀ w : String, s = .word w → 'A' ∈ w.toList → False := by
        rintro w rfl hletter
        have hmem := mem_of_word_mem_flush hs hletter
        exact absurd (List.all_eq_true.mp (Decimal.all_isDigit_digits n.toNat) 'A' hmem) (by decide)
      rw [startsConstraint, Bool.not_eq_false, Bool.or_eq_true, beq_iff_eq, beq_iff_eq]
        at hconstraint
      rcases hconstraint with h | h
      · exact hdigit _ h (by decide)
      · exact hdigit _ h (by decide)
    constructor
    · have hblank : ' ' ∉ Decimal.digits n.toNat := fun h => absurd (hbreak ' ' h) (by decide)
      simpa [Dialect.sizedName, Decimal.showNat, hsized.unbroken] using hblank
    · rw [gather_sizedName, List.forall_mem_append, List.forall_mem_cons, List.forall_mem_append,
        List.forall_mem_singleton]
      exact ⟨hsized.unconstrained, rfl, hdigits, rfl⟩

/-- **The types of SQLite are legible.** -/
theorem legible_typeName (column : Column) : LegibleType (Dialect.sqlite.typeName column) := by
  unfold Dialect.typeName Dialect.sqliteTypeName
  simp only
  split
  all_goals first
    | exact ⟨by decide, by decide⟩
    | exact legible_sizedName ⟨by decide, by decide⟩ ⟨by decide, by decide⟩ _

end SchemaMigration
