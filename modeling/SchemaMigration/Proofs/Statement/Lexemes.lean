import SchemaMigration.Proofs.Statement.Condition
import SchemaMigration.Proofs.Statement.Separation

/-!
# Lexemes of a compiled statement

The lexemes of a statement made of plain pieces are the lexemes of the pieces: no word goes on from
one piece into the next, and every placeholder gets the value that its piece binds.

* `gather_append_of_head`, `gather_append_of_last`: tokens are gathered apart at a break.
* `Clean.gather_tokens`, `Clean.unbound?_ofPieces`: the lexemes of clean pieces, with placeholders.
* **`Plain.lexemes?_ofPieces`**: the lexemes of plain pieces.
-/

namespace SchemaMigration

open Lexeme
open Token (isSpecial)

/-! ## Gathering at a break -/

/-- The token ends a word. -/
def Token.isBreak : Token → Bool
  | .bare c => SchemaMigration.isBreak c
  | _ => true

namespace Lexeme

theorem gather_bare (read : List Char) (c : Char) (r : List Token) :
    gather read (.bare c :: r) =
      if c = ' ' then flush read ++ gather [] r
      else if isBreak c then flush read ++ Lexeme.mark c :: gather [] r
      else gather (read ++ [c]) r :=
  rfl

/-- A break ends the word before it. -/
theorem gather_break {t : Token} (ht : t.isBreak = true) (read : List Char) (r : List Token) :
    gather read (t :: r) = flush read ++ (gather [] [t] ++ gather [] r) := by
  cases t with
  | name s => rfl
  | text s => rfl
  | bare c =>
    have hc : isBreak c = true := ht
    rw [gather_bare, gather_bare, if_pos hc]
    by_cases hblank : c = ' '
    · rw [if_pos hblank, if_pos hblank]
      rfl
    · rw [if_neg hblank, if_neg hblank, if_pos hc]
      rfl

/-- What stands before a break and what stands from it on are gathered apart. -/
theorem gather_append_of_head {us : List Token} (h : ∀ t ∈ us.head?, t.isBreak = true)
    (ts : List Token) (read : List Char) :
    gather read (ts ++ us) = gather read ts ++ gather [] us := by
  induction ts generalizing read with
  | nil =>
    cases us with
    | nil => simp [gather, flush]
    | cons u us =>
      have hu : u.isBreak = true := h u rfl
      rw [List.nil_append, gather_break hu read us, gather_break hu [] us]
      rfl
  | cons t ts ih =>
    by_cases ht : t.isBreak = true
    · rw [List.cons_append, gather_break ht read (ts ++ us), gather_break ht read ts, ih]
      simp only [List.append_assoc]
    · cases t with
      | name s => exact absurd rfl ht
      | text s => exact absurd rfl ht
      | bare c =>
        have hc : ¬ isBreak c = true := ht
        have hblank : c ≠ ' ' := by
          rintro rfl
          exact hc rfl
        rw [List.cons_append, gather_bare, gather_bare, if_neg hblank, if_neg hblank, if_neg hc,
          if_neg hc, ih]

/-- What stands up to a break and what stands after it are gathered apart. -/
theorem gather_append_of_last {ts : List Token} (h : ∃ t ∈ ts.getLast?, t.isBreak = true)
    (us : List Token) (read : List Char) :
    gather read (ts ++ us) = gather read ts ++ gather [] us := by
  obtain ⟨t, hlast, ht⟩ := h
  obtain ⟨before, rfl⟩ := List.getLast?_eq_some_iff.mp hlast
  have hhead : ∀ r, ∀ u ∈ (t :: r).head?, u.isBreak = true := by
    rintro r u ⟨⟩
    exact ht
  rw [List.append_assoc, List.singleton_append, gather_append_of_head (hhead us),
    gather_append_of_head (hhead []), gather_break ht, List.append_assoc]
  rfl

/-- Characters without a break are one word. -/
theorem gather_word {s : List Char} (h : ∀ c ∈ s, isBreak c = false) (read : List Char) :
    gather read (s.map .bare) = flush (read ++ s) := by
  induction s generalizing read with
  | nil => simp [gather]
  | cons c s ih =>
    rw [List.forall_mem_cons] at h
    have hblank : c ≠ ' ' := by
      rintro rfl
      exact absurd h.1 (by decide)
    rw [List.map_cons, gather_bare, if_neg hblank, if_neg (by simp [h.1]), ih h.2,
      List.append_assoc, List.singleton_append]

/-- The characters of a word are those that were read. -/
theorem mem_of_word_mem_flush {read : List Char} {w : String} (h : .word w ∈ flush read)
    {c : Char} (hc : c ∈ w.toList) : c ∈ read := by
  unfold flush at h
  split at h
  · cases h
  · rw [List.mem_singleton, Lexeme.word.injEq] at h
    rwa [h, String.toList_ofList] at hc

/-- Words that are read as they stand hold no placeholder. -/
theorem verbatim_of_mem_gather {s : List Char} (h : ∀ c ∈ s, isSpecial c = false) :
    ∀ {read : List Char}, (∀ c ∈ read, isSpecial c = false) →
      ∀ {w : String}, .word w ∈ gather read (s.map .bare) → Verbatim w := by
  induction s with
  | nil =>
    intro read hread w hw c hc
    exact hread c (mem_of_word_mem_flush hw hc)
  | cons c s ih =>
    intro read hread w hw
    rw [List.forall_mem_cons] at h
    have hflush : .word w ∈ flush read → Verbatim w := fun hw e he =>
      hread e (mem_of_word_mem_flush hw he)
    rw [List.map_cons, gather_bare] at hw
    split at hw
    · rcases List.mem_append.mp hw with hw | hw
      · exact hflush hw
      · exact ih h.2 (by simp) hw
    · split at hw
      · rcases List.mem_append.mp hw with hw | hw
        · exact hflush hw
        · rcases List.mem_cons.mp hw with hw | hw
          · cases hw
          · exact ih h.2 (by simp) hw
      · refine ih h.2 ?_ hw
        rw [List.forall_mem_append, List.forall_mem_singleton]
        exact ⟨hread, h.1⟩

/-! ## Placeholders -/

theorem parameter?_of_verbatim {w : String} (h : Verbatim w) (next : Nat) :
    (Lexeme.word w).parameter? next = none := by
  unfold parameter?
  simp only
  split
  · rename_i hw
    exact absurd (h '?' (by simp [hw])) (by decide)
  · rename_i digits hw
    exact absurd (h '$' (by simp [hw])) (by decide)
  · rfl

/-- The placeholder at a position stands for the parameter there. -/
theorem parameter?_placeholder (d : Dialect) (next : Nat) :
    (Lexeme.word (d.placeholder (next + 1))).parameter? next = some next := by
  cases d with
  | sqlite =>
    have htext : (Dialect.placeholder .sqlite (next + 1)).toList = ['?'] := String.toList_ofList
    unfold parameter?
    simp only [htext]
  | postgres =>
    have htext : (Dialect.placeholder .postgres (next + 1)).toList =
        '$' :: Decimal.digits (next + 1) := by
      simp [Dialect.placeholder, Decimal.showNat]
    unfold parameter?
    simp only [htext]
    rw [Decimal.readNat?_digits]
    rfl

/-- Lexemes without placeholders stay as they are. -/
theorem bind?_append {lexemes : List Lexeme} (h : ∀ w, .word w ∈ lexemes → Verbatim w)
    (parameters : List Value) (next : Nat) (r : List Lexeme) :
    bind? parameters next (lexemes ++ r) = (bind? parameters next r).map (lexemes ++ ·) := by
  induction lexemes with
  | nil => simp
  | cons s lexemes ih =>
    have ih := ih fun w hw => h w (List.mem_cons_of_mem s hw)
    have hs : s.parameter? next = none := by
      cases s with
      | word w => exact parameter?_of_verbatim (h w List.mem_cons_self) next
      | name _ => rfl
      | text _ => rfl
      | mark _ => rfl
      | value _ => rfl
    rw [List.cons_append, bind?, hs]
    simp only
    rw [ih, Option.map_map]
    rfl

/-- A placeholder gives way to its parameter. -/
theorem bind?_placeholder (d : Dialect) (before after : List Value) (v : Value)
    (r : List Lexeme) :
    bind? (before ++ v :: after) before.length (.word (d.placeholder (before.length + 1)) :: r) =
      (bind? (before ++ v :: after) (before.length + 1) r).map (.value v :: ·) := by
  have hv : (before ++ v :: after)[before.length]? = some v := by simp
  rw [bind?, parameter?_placeholder]
  simp only [hv]
  cases bind? (before ++ v :: after) (before.length + 1) r <;> rfl

end Lexeme

/-! ## Lexemes of pieces -/

/-- The lexemes of a piece. -/
def Piece.lexemes : Piece → List Lexeme
  | .words s => gather [] (s.toList.map .bare)
  | .name s => [.name s]
  | .literal v => gather [] v.tokens
  | .parameter v => [.value v]

/-- The lexemes of pieces, the first placeholder being at the position. -/
def unbound (d : Dialect) (position : Nat) : List Piece → List Lexeme
  | [] => []
  | p :: ps => gather [] (p.tokens d position) ++ unbound d (positionAfter position p) ps

theorem Piece.isBreak_of_opens {p : Piece} (h : p.opens = true) (d : Dialect) (n : Nat)
    (r : List Token) : ∀ t ∈ (p.tokens d n ++ r).head?, t.isBreak = true := by
  cases p with
  | words s =>
    simp only [Piece.opens, Option.any_eq_true] at h
    obtain ⟨c, hc, hbreak⟩ := h
    intro t ht
    simp only [Piece.tokens, List.head?_append, List.head?_map, hc, Option.map_some, Option.some_or,
      Option.mem_some_iff] at ht
    rw [← ht]
    exact hbreak
  | name s => cases h
  | literal v => cases h
  | parameter v => cases h

theorem Piece.isBreak_of_closes {p : Piece} (h : p.closes = true) (d : Dialect) (n : Nat) :
    ∃ t ∈ (p.tokens d n).getLast?, t.isBreak = true := by
  cases p with
  | words s =>
    simp only [Piece.closes, Option.any_eq_true] at h
    obtain ⟨c, hc, hbreak⟩ := h
    exact ⟨.bare c, by simp [Piece.tokens, hc], hbreak⟩
  | name s => cases h
  | literal v => cases h
  | parameter v => cases h

/-- No word goes on from one clean piece into the next. -/
theorem Clean.gather_tokens (d : Dialect) : ∀ {ps : List Piece}, Clean ps → ∀ n,
    gather [] (tokens d n ps) = unbound d n ps
  | [], _, _ => rfl
  | p :: ps, h, n => by
    have ih := gather_tokens d h.tail (positionAfter n p)
    show gather [] (p.tokens d n ++ tokens d (positionAfter n p) ps) = _
    by_cases hp : p.closes = true
    · rw [gather_append_of_last (Piece.isBreak_of_closes hp d n), ih]
      rfl
    · have hhead : ∀ t ∈ (tokens d (positionAfter n p) ps).head?, t.isBreak = true := by
        cases ps with
        | nil => simp [tokens]
        | cons q ps => exact Piece.isBreak_of_opens (h.opens_of_cons (by simpa using hp)) d _ _
      rw [gather_append_of_head hhead, ih]
      rfl

/-- The lexemes of a statement, its placeholders left as they are. -/
def Statement.unbound? (s : Statement) : Option (List Lexeme) :=
  (Token.tokens? s.sql).map (gather [])

theorem Clean.unbound?_ofPieces {ps : List Piece} (h : Clean ps) (d : Dialect) :
    (Statement.ofPieces d ps).unbound? = some (unbound d 1 ps) := by
  show (Token.tokens? (sqlText d 1 ps)).map _ = _
  rw [h.tokens?_sqlText, Option.map_some, h.gather_tokens]

theorem gather_placeholder (d : Dialect) (n : Nat) :
    gather [] ((d.placeholder n).toList.map .bare) = [.word (d.placeholder n)] := by
  have hbreak : ∀ c ∈ (d.placeholder n).toList, isBreak c = false := by
    cases d with
    | sqlite =>
      have h : ∀ c ∈ "?".toList, isBreak c = false := forall_mem_of_all (by decide)
      exact h
    | postgres =>
      simp only [Dialect.placeholder, Decimal.showNat, String.toList_append, String.toList_ofList,
        List.forall_mem_append]
      refine ⟨forall_mem_of_all (by decide), fun c hc => ?_⟩
      have hdigit := List.all_eq_true.mp (Decimal.all_isDigit_digits n) c hc
      by_contra hc
      simp only [isBreak, Bool.not_eq_false, Bool.or_eq_true, beq_iff_eq] at hc
      rcases hc with ((rfl | rfl) | rfl) | rfl <;> exact absurd hdigit (by decide)
  have hne : (d.placeholder n).toList ≠ [] := by
    cases d with
    | sqlite => simp [Dialect.placeholder]
    | postgres => simp [Dialect.placeholder]
  rw [gather_word hbreak, List.nil_append, flush, if_neg (by simpa using hne),
    String.ofList_toList]

theorem unbound_append (d : Dialect) (n : Nat) (ps qs : List Piece) :
    unbound d n (ps ++ qs) = unbound d n ps ++ unbound d (n + (parameters ps).length) qs := by
  induction ps generalizing n with
  | nil => rfl
  | cons p ps ih =>
    show gather [] (p.tokens d n) ++ unbound d (positionAfter n p) (ps ++ qs) = _
    rw [ih, positionAfter_add, ← List.append_assoc]
    rfl

theorem unbound_words (d : Dialect) (n : Nat) (w : String) (ps : List Piece) :
    unbound d n (.words w :: ps) = gather [] (w.toList.map .bare) ++ unbound d n ps :=
  rfl

theorem unbound_name (d : Dialect) (n : Nat) (name : String) (ps : List Piece) :
    unbound d n (.name name :: ps) = .name name :: unbound d n ps := by
  show gather [] [Token.name name.toList] ++ unbound d n ps = _
  simp [gather, flush]

theorem unbound_parameter (d : Dialect) (n : Nat) (v : Value) (ps : List Piece) :
    unbound d n (.parameter v :: ps) = .word (d.placeholder n) :: unbound d (n + 1) ps := by
  show gather [] ((d.placeholder n).toList.map Token.bare) ++ unbound d (n + 1) ps = _
  rw [gather_placeholder]
  rfl

/-- Every placeholder of clean pieces without literals gives way to the value that its piece
binds. -/
theorem bind?_unbound (d : Dialect) : ∀ {ps : List Piece}, (∀ p ∈ ps, p.isProper = true) →
    literals ps = [] → ∀ before : List Value,
      bind? (before ++ parameters ps) before.length (unbound d (before.length + 1) ps) =
        some (ps.flatMap Piece.lexemes)
  | [], _, _, _ => rfl
  | p :: ps, hproper, hliterals, before => by
    rw [List.forall_mem_cons] at hproper
    cases p with
    | words s =>
      have ih := bind?_unbound d hproper.2 hliterals before
      have hspecial : ∀ c ∈ s.toList, isSpecial c = false := by
        simpa [Piece.isProper] using hproper.1
      rw [unbound_words, parameters_words,
        bind?_append fun w hw => verbatim_of_mem_gather hspecial (by simp) hw, ih]
      rfl
    | name s =>
      have ih := bind?_unbound d hproper.2 hliterals before
      have hname : ∀ w, .word w ∈ [Lexeme.name s] → Verbatim w := by simp
      rw [unbound_name, parameters_name]
      show bind? _ _ ([Lexeme.name s] ++ unbound d (before.length + 1) ps) = _
      rw [bind?_append hname, ih]
      rfl
    | literal v => cases hliterals
    | parameter v =>
      have ih := bind?_unbound d hproper.2 hliterals (before ++ [v])
      rw [List.append_assoc, List.singleton_append, List.length_append, List.length_singleton] at ih
      rw [unbound_parameter, parameters_parameter, bind?_placeholder, ih]
      rfl

/-- **The lexemes of a statement are those of its pieces.** -/
theorem Plain.lexemes?_ofPieces {ps : List Piece} (h : Plain ps) (d : Dialect) :
    (Statement.ofPieces d ps).lexemes? = some (ps.flatMap Piece.lexemes) := by
  have hbind := bind?_unbound d h.1.proper h.2 []
  show (Token.tokens? (sqlText d 1 ps)).bind _ = _
  rw [h.1.tokens?_sqlText, Option.bind_some, h.1.gather_tokens d]
  exact hbind

end SchemaMigration
