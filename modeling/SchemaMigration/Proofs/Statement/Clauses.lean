import SchemaMigration.Proofs.Statement.Precedence

/-!
# The condition among the clauses

A select, an update or a delete under a condition has that condition after `WHERE`, and no word in
front of it or inside of it starts a clause of its own.

* `Inner`: pieces without the words that delimit a condition.
* `Under`: pieces of a statement under a predicate; `Select.under_pieces`, `Update.under_pieces`,
  `Delete.under_pieces`: those of the queries.
* **`Under.condition?_ofPieces`**: the condition of such a statement has the truth value of the
  predicate.
-/

namespace SchemaMigration

open Lexeme

/-! ## Words that delimit a condition -/

/-- The lexeme delimits a condition. -/
def Lexeme.isDelimiter (s : Lexeme) : Bool :=
  s == .word "WHERE" || s.isLater

/-- No lexeme of the pieces delimits a condition. -/
def Inner (ps : List Piece) : Prop :=
  ∀ p ∈ ps, (p.lexemes.all fun s => !s.isDelimiter) = true

/-- The pieces start with a lexeme that ends a condition, if there are any. -/
def Trailing (ps : List Piece) : Prop :=
  ∀ s ∈ (ps.flatMap Piece.lexemes).head?, s.isLater = true

/-- What stands between `WHERE` and the clauses after it. -/
theorem Lexeme.whereClause_append {before condition after : List Lexeme}
    (hbefore : ∀ s ∈ before, s.isDelimiter = false)
    (hcondition : ∀ s ∈ condition, s.isDelimiter = false)
    (hafter : ∀ s ∈ after.head?, s.isLater = true) :
    whereClause (before ++ Lexeme.word "WHERE" :: (condition ++ after)) = condition := by
  have hskip : ∀ s ∈ before, (s != .word "WHERE") = true := by
    intro s hs
    have h := hbefore s hs
    rw [isDelimiter, Bool.or_eq_false_iff] at h
    simpa using h.1
  have htake : ∀ s ∈ condition, (!s.isLater) = true := by
    intro s hs
    have h := hcondition s hs
    rw [isDelimiter, Bool.or_eq_false_iff] at h
    simp [h.2]
  have hstop : (after.takeWhile fun s => !s.isLater) = [] := by
    cases after with
    | nil => rfl
    | cons s r => simp [hafter s rfl]
  unfold whereClause
  rw [List.dropWhile_append_of_pos hskip, List.dropWhile_cons_of_neg (by simp), List.drop_one,
    List.tail_cons, List.takeWhile_append_of_pos htake, hstop, List.append_nil]

namespace Inner

theorem nil : Inner [] := by
  simp [Inner]

theorem append {ps qs : List Piece} (hp : Inner ps) (hq : Inner qs) : Inner (ps ++ qs) :=
  List.forall_mem_append.mpr ⟨hp, hq⟩

theorem name (s : String) {ps : List Piece} (h : Inner ps) : Inner (.name s :: ps) :=
  List.forall_mem_cons.mpr ⟨rfl, h⟩

theorem parameter (v : Value) {ps : List Piece} (h : Inner ps) : Inner (.parameter v :: ps) :=
  List.forall_mem_cons.mpr ⟨rfl, h⟩

theorem words {ps : List Piece} (h : Inner ps) (w : String)
    (hw : ((Piece.words w).lexemes.all fun s => !s.isDelimiter) = true := by decide) :
    Inner (.words w :: ps) :=
  List.forall_mem_cons.mpr ⟨hw, h⟩

theorem intersperse {w : String}
    (hw : ((Piece.words w).lexemes.all fun s => !s.isDelimiter) = true) :
    ∀ {groups : List (List Piece)}, (∀ g ∈ groups, Inner g) →
      Inner (Text.intersperse [.words w] groups)
  | [], _ => nil
  | [g], h => h g (by simp)
  | g :: g' :: r, h => by
    rw [List.forall_mem_cons] at h
    exact (h.1.append (nil.words w hw)).append (intersperse hw h.2)

theorem commas {groups : List (List Piece)} (h : ∀ g ∈ groups, Inner g) :
    Inner (Piece.commas groups) :=
  intersperse (by decide) h

theorem forall_lexemes {ps : List Piece} (h : Inner ps) :
    ∀ s ∈ ps.flatMap Piece.lexemes, s.isDelimiter = false := by
  intro s hs
  obtain ⟨p, hp, hs⟩ := List.mem_flatMap.mp hs
  simpa using List.all_eq_true.mp (h p hp) s hs

end Inner

namespace Predicate

theorem inner_enclose {p : Predicate} {ps : List Piece} (h : Inner ps) :
    Inner (p.enclose ps) := by
  unfold enclose
  split
  · exact (h.append (Inner.nil.words ")")).words "("
  · exact h

mutual

/-- A predicate is written without words that delimit a condition. -/
theorem inner_pieces {vars : Variables} : ∀ (p : Predicate) {ps : List Piece},
    p.pieces vars = .ok ps → Inner ps
  | .compare field op x, ps, h => by
    obtain ⟨v, rfl, -, -⟩ := pieces_compare_ok h
    exact ((Inner.nil.parameter v).words _ (by cases op <;> decide)).name field
  | .isNull field negated, ps, h => by
    obtain ⟨rfl, -⟩ := pieces_isNull_ok h
    exact (Inner.nil.words _ (by cases negated <;> decide)).name field
  | .inList field xs negated, ps, h => by
    obtain ⟨vs, rfl, -, -⟩ := pieces_inList_ok h
    have hcommas : Inner (Piece.commas (vs.map fun v => [Piece.parameter v])) :=
      Inner.commas (List.forall_mem_map.mpr fun v _ => Inner.nil.parameter v)
    exact ((hcommas.append (Inner.nil.words ")")).words _ (by cases negated <;> decide)).name field
  | .all ps', ps, h => by
    obtain ⟨parts, hparts, h⟩ := bind_eq_ok_iff.mp h
    cases h
    split
    · exact Inner.nil.words "1 = 1"
    · exact Inner.intersperse (by decide) (inner_members ps' hparts)
  | .any ps', ps, h => by
    obtain ⟨parts, hparts, h⟩ := bind_eq_ok_iff.mp h
    cases h
    split
    · exact Inner.nil.words "1 = 0"
    · exact Inner.intersperse (by decide) (inner_members ps' hparts)
  | .not p, ps, h => by
    obtain ⟨inner, hinner, h⟩ := bind_eq_ok_iff.mp h
    cases h
    exact ((inner_pieces p hinner).append (Inner.nil.words ")")).words "NOT ("

theorem inner_members {vars : Variables} : ∀ (ps : List Predicate) {parts : List (List Piece)},
    piecesOfMembers vars ps = .ok parts → ∀ g ∈ parts, Inner g
  | [], _, h => by
    cases h
    simp
  | p :: ps, _, h => by
    obtain ⟨first, hfirst, h⟩ := bind_eq_ok_iff.mp h
    obtain ⟨rest, hrest, h⟩ := bind_eq_ok_iff.mp h
    cases h
    rw [List.forall_mem_cons]
    exact ⟨inner_enclose (inner_pieces p hfirst), inner_members ps hrest⟩

end

end Predicate

/-! ## Clauses after the condition -/

theorem trailing_nil : Trailing [] := by
  simp [Trailing]

theorem trailing_words {w : String} (ps : List Piece)
    (hw : (Piece.words w).lexemes.head?.any Lexeme.isLater = true) :
    Trailing (.words w :: ps) := by
  obtain ⟨s, hs, hlater⟩ := (Option.any_eq_true _ _).mp hw
  unfold Trailing
  rw [List.flatMap_cons, List.head?_append, hs]
  simpa using hlater

theorem Trailing.append {ps qs : List Piece} (hp : Trailing ps) (hq : Trailing qs) :
    Trailing (ps ++ qs) := by
  unfold Trailing at *
  rw [List.flatMap_append, List.head?_append]
  cases hhead : (ps.flatMap Piece.lexemes).head? with
  | none => exact hq
  | some s => exact fun t ht => hp t (by rw [hhead]; exact ht)

theorem trailing_sortPieces {terms : List SortTerm} {ps : List Piece}
    (h : sortPieces terms = .ok ps) : Trailing ps := by
  obtain ⟨parts, -, h⟩ := bind_eq_ok_iff.mp h
  cases h
  split
  · exact trailing_nil
  · exact trailing_words _ (by decide)

/-- Words that go on after a break start with the same lexeme. -/
theorem head?_lexemes_append {w : String} (hw : (Piece.words w).closes = true) {s : Lexeme}
    (hs : (Piece.words w).lexemes.head? = some s) (t : String) :
    (Piece.words (w ++ t)).lexemes.head? = some s := by
  have hlast : ∃ u ∈ (w.toList.map Token.bare).getLast?, u.isBreak = true :=
    Piece.isBreak_of_closes hw .sqlite 1
  have hhead : (gather [] (w.toList.map .bare)).head? = some s := hs
  show (gather [] ((w ++ t).toList.map .bare)).head? = some s
  rw [String.toList_append, List.map_append, gather_append_of_last hlast, List.head?_append, hhead]
  rfl

/-- A window starts with its limit or with its offset. -/
theorem Dialect.windowWords_eq (d : Dialect) (r : Range) : ∃ t,
    d.windowWords r = "LIMIT " ++ t ∨ d.windowWords r = "OFFSET " ++ t := by
  have hlimit : ∀ limit offset : String, ∃ t, "LIMIT " ++ limit ++ " " ++ offset = "LIMIT " ++ t ∨
      "LIMIT " ++ limit ++ " " ++ offset = "OFFSET " ++ t := fun limit offset =>
    ⟨limit ++ " " ++ offset, Or.inl (by simp only [String.append_assoc])⟩
  unfold windowWords
  simp only
  cases d with
  | sqlite =>
    cases hr : r.limit with
    | none =>
      have hnone : "LIMIT -1" = "LIMIT " ++ "-1" := by decide
      simp only [Option.isNone_none, if_true, hnone]
      split
      · exact ⟨_, Or.inl rfl⟩
      · exact hlimit _ _
    | some n =>
      simp only [Option.isNone_some, Bool.false_eq_true, if_false, Option.map_some,
        Option.getD_some]
      split
      · exact ⟨_, Or.inl rfl⟩
      · exact hlimit _ _
  | postgres =>
    cases hr : r.limit with
    | none => exact ⟨_, Or.inr rfl⟩
    | some n =>
      simp only [Option.isNone_some, Bool.false_eq_true, if_false, Option.map_some,
        Option.getD_some]
      split
      · exact ⟨_, Or.inl rfl⟩
      · exact hlimit _ _

theorem Range.trailing_pieces (d : Dialect) (r : Range) : Trailing (r.pieces d) := by
  unfold Range.pieces
  split
  · exact trailing_nil
  · refine trailing_words _ ?_
    obtain ⟨t, ht | ht⟩ := d.windowWords_eq r
    · rw [ht, ← String.append_assoc,
        head?_lexemes_append (w := " " ++ "LIMIT ") (by decide) (s := .word "LIMIT") (by decide)]
      rfl
    · rw [ht, ← String.append_assoc,
        head?_lexemes_append (w := " " ++ "OFFSET ") (by decide) (s := .word "OFFSET") (by decide)]
      rfl

/-! ## Statements under a condition -/

/-- The pieces are a statement under the predicate. -/
def Under (vars : Variables) (p : Predicate) (ps : List Piece) : Prop :=
  ∃ before condition after, ps = before ++ Piece.words " WHERE " :: (condition ++ after) ∧
    Inner before ∧ Predicate.wherePieces vars (some p) = .ok (.words " WHERE " :: condition) ∧
      Trailing after

theorem Predicate.wherePieces_ok {vars : Variables} {p : Predicate} {ps : List Piece}
    (h : wherePieces vars (some p) = .ok ps) : p.misuse? = none ∧
      ∃ condition, p.pieces vars = .ok condition ∧ ps = .words " WHERE " :: condition := by
  obtain ⟨_, hcheck, h⟩ := bind_eq_ok_iff.mp h
  obtain ⟨condition, hcondition, h⟩ := bind_eq_ok_iff.mp h
  cases h
  refine ⟨?_, condition, hcondition, rfl⟩
  have hcheck := mapError_eq_ok_iff.mp hcheck
  unfold check at hcheck
  cases hp : p.misuse? with
  | none => rfl
  | some m =>
    rw [hp] at hcheck
    cases hcheck

/-- **The condition of a statement under a predicate** is read back to one of its truth value. -/
theorem Under.condition?_ofPieces {vars : Variables} {p : Predicate} {ps : List Piece}
    (h : Under vars p ps) (hplain : Plain ps) (d : Dialect) :
    ∃ c, (Statement.ofPieces d ps).condition? = some c ∧
      ∀ outcome, p.truth? vars outcome = some (c.truth outcome) := by
  obtain ⟨before, condition, after, rfl, hbefore, hwhere, hafter⟩ := h
  obtain ⟨hmisuse, condition', hcondition, hps⟩ := Predicate.wherePieces_ok hwhere
  cases hps
  obtain ⟨items, c, hspells, ⟨f, hwhole, hread⟩, -, htruth⟩ :=
    Predicate.reads_pieces p hmisuse hcondition
  refine ⟨c, ?_, htruth⟩
  have hw : (Piece.words " WHERE ").lexemes = [.word "WHERE"] := by decide
  have hclause := Lexeme.whereClause_append hbefore.forall_lexemes
    (Predicate.inner_pieces p hcondition).forall_lexemes hafter
  have hitems : Reading.items? (condition.flatMap Piece.lexemes) = some items := by
    unfold Reading.items?
    rw [hspells]
  have hcondition := hread [] []
  rw [List.append_nil] at hcondition
  unfold Statement.condition?
  rw [hplain.lexemes?_ofPieces d, Option.bind_some, List.flatMap_append, List.flatMap_cons, hw,
    List.flatMap_append, List.singleton_append, hclause, hitems, Option.bind_some, hcondition]
  exact hwhole

theorem inner_fieldPieces {fields : List String} {ps : List Piece}
    (h : fieldPieces fields = .ok ps) : Inner ps := by
  obtain ⟨rfl, -⟩ := fieldPieces_ok h
  exact Inner.commas (List.forall_mem_map.mpr fun name _ => Inner.nil.name name)

theorem Select.under_pieces {d : Dialect} {vars : Variables} {q : Select} {p : Predicate}
    {ps : List Piece} (h : q.pieces d vars = .ok ps) (hp : q.predicate = some p) :
    Under vars p ps := by
  obtain ⟨c, fields, condition, order, -, hfields, hcondition, horder, rfl⟩ :=
    pieces_eq_ok_iff.mp h
  rw [hp] at hcondition
  obtain ⟨-, inner, -, rfl⟩ := Predicate.wherePieces_ok hcondition
  have hfields : Inner (if q.fields.isEmpty then [.words "*"] else fields) := by
    split
    · exact Inner.nil.words "*"
    · exact inner_fieldPieces hfields
  generalize (if q.fields.isEmpty then [.words "*"] else fields) = fields at hfields
  have hbefore := (hfields.append ((Inner.nil.name c.identity).words " FROM ")).words "SELECT "
  exact ⟨_, inner, order ++ q.range.pieces d, by simp, hbefore, hcondition,
    (trailing_sortPieces horder).append (q.range.trailing_pieces d)⟩

theorem Update.under_pieces {vars : Variables} {q : Update} {p : Predicate} {ps : List Piece}
    (h : q.pieces vars = .ok ps) (hp : q.predicate = some p) : Under vars p ps := by
  obtain ⟨-, assignments, condition, hassignments, hcondition, rfl⟩ := pieces_eq_ok_iff.mp h
  rw [hp] at hcondition
  obtain ⟨-, inner, -, rfl⟩ := Predicate.wherePieces_ok hcondition
  have hassignments : ∀ g ∈ assignments, Inner g := by
    refine forall_of_piecesOfAll hassignments fun entry ps hps => ?_
    obtain ⟨v, rfl, -⟩ := assignmentPieces_ok hps
    exact ((Inner.nil.parameter v).words " = ").name entry.1
  have hset := (Inner.commas hassignments).words " SET "
  have hbefore := (hset.name q.collection.identity).words "UPDATE "
  exact ⟨_, inner, [], by simp, hbefore, hcondition, trailing_nil⟩

theorem Delete.under_pieces {vars : Variables} {q : Delete} {p : Predicate} {ps : List Piece}
    (h : q.pieces vars = .ok ps) (hp : q.predicate = some p) : Under vars p ps := by
  obtain ⟨condition, hcondition, h⟩ := bind_eq_ok_iff.mp h
  cases h
  rw [hp] at hcondition
  obtain ⟨-, inner, -, rfl⟩ := Predicate.wherePieces_ok hcondition
  have hbefore := (Inner.nil.name q.collection.identity).words "DELETE FROM "
  exact ⟨_, inner, [], by simp, hbefore, hcondition, trailing_nil⟩

end SchemaMigration
