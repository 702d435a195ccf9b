import Mathlib
import SchemaMigration.Proofs.Description.Expansion
import SchemaMigration.Proofs.Statement.Lexemes
import SchemaMigration.Proofs.Statement.Parameters

/-!
# Placeholders and parameters line up

The text of a statement and its parameters are written side by side. Read back from the text alone,
the placeholders are those of the parameters, one by one, and every column that is assigned stands
with the placeholder of its own value.

About `bind` of `StatementWriter`, in `compile_select`, `compile_insert`, `compile_update` and
`compile_delete`.

* `placeholders`: the placeholders in a text; **`Plain.placeholders_sqlText`**: in the text of plain
  pieces they count the parameters up.
* `Statement.assigned?`: the columns of an insert or an update with their placeholders, read off the
  text.
* **`Query.placeholders_compile`**: the placeholders, the parameters and the assigned columns of
  every compiled query on rows.
-/

namespace SchemaMigration

open Lexeme
open Token (isSpecial)

/-! ## Placeholders in a text -/

/-- The character that a placeholder starts with. -/
def Dialect.mark : Dialect → Char
  | .sqlite => '?'
  | .postgres => '$'

/-- The placeholders in a text, from left to right: the mark, and the digits that follow it. -/
def placeholders (mark : Char) : List Char → List String
  | [] => []
  | c :: r =>
    if c = mark then String.ofList (c :: r.takeWhile Decimal.isDigit) :: placeholders mark r
    else placeholders mark r

theorem length_placeholders (mark : Char) (s : List Char) :
    (placeholders mark s).length = s.count mark := by
  induction s with
  | nil => rfl
  | cons c r ih =>
    unfold placeholders
    by_cases hc : c = mark
    · rw [if_pos hc, List.length_cons, ih, hc, List.count_cons_self]
    · rw [if_neg hc, ih, List.count_cons_of_ne hc]

theorem placeholders_append_of_not_mem {mark : Char} {s : List Char} (h : mark ∉ s)
    (r : List Char) : placeholders mark (s ++ r) = placeholders mark r := by
  induction s with
  | nil => rfl
  | cons c s ih =>
    rw [List.mem_cons, not_or] at h
    rw [List.cons_append, placeholders, if_neg (Ne.symm h.1), ih h.2]

namespace Dialect

variable (d : Dialect)

theorem isSpecial_mark : isSpecial d.mark = true := by
  cases d <;> rfl

theorem mark_not_mem {s : List Char} (h : ∀ c ∈ s, isSpecial c = false) : d.mark ∉ s := by
  intro hmem
  have := h _ hmem
  rw [isSpecial_mark] at this
  cases this

/-- A placeholder is the mark and then digits. -/
theorem toList_placeholder (n : Nat) : ∃ digits, (d.placeholder n).toList = d.mark :: digits ∧
    digits.all Decimal.isDigit = true := by
  cases d with
  | sqlite => exact ⟨[], String.toList_ofList, rfl⟩
  | postgres =>
    exact ⟨Decimal.digits n, by simp [placeholder, mark, Decimal.showNat],
      Decimal.all_isDigit_digits n⟩

/-- A placeholder is read up to its last digit. -/
theorem placeholders_placeholder (n : Nat) {r : List Char}
    (hr : ∀ c ∈ r.head?, Decimal.isDigit c = false) :
    placeholders d.mark ((d.placeholder n).toList ++ r) =
      d.placeholder n :: placeholders d.mark r := by
  obtain ⟨digits, htext, hdigits⟩ := d.toList_placeholder n
  have hspecial : ∀ c ∈ digits, isSpecial c = false := fun c hc =>
    isSpecial_of_isDigit (List.all_eq_true.mp hdigits c hc)
  have hrun : (digits ++ r).takeWhile Decimal.isDigit = digits := by
    rw [List.takeWhile_append_of_pos (List.all_eq_true.mp hdigits)]
    cases r with
    | nil => simp
    | cons c r => simp [hr c rfl]
  rw [htext, List.cons_append, placeholders, if_pos rfl, hrun,
    placeholders_append_of_not_mem (d.mark_not_mem hspecial), ← htext, String.ofList_toList]

end Dialect

theorem isDigit_of_isBreak {c : Char} (h : isBreak c = true) : Decimal.isDigit c = false := by
  simp only [isBreak, Bool.or_eq_true, beq_iff_eq] at h
  rcases h with ((rfl | rfl) | rfl) | rfl <;> rfl

/-- A name between quotes holds no placeholder. -/
theorem mark_not_mem_quoteName (d : Dialect) {name : String} (h : Identifier.Safe name) :
    d.mark ∉ (quoteName name).toList := by
  rw [toList_quoteName h]
  simp only [List.mem_append, List.mem_cons, not_or]
  have hquote : d.mark ≠ '"' := by
    cases d <;> decide
  exact ⟨⟨hquote, d.mark_not_mem fun c hc => isSpecial_of_isRest (h c hc)⟩, hquote, by simp⟩

/-- **The placeholders in the text of plain pieces** count their parameters up. -/
theorem Plain.placeholders_sqlText (d : Dialect) : ∀ {ps : List Piece}, Plain ps → ∀ n,
    placeholders d.mark (sqlText d n ps).toList =
      (List.range' n (parameters ps).length).map d.placeholder
  | [], _, _ => rfl
  | p :: ps, h, n => by
    obtain ⟨hclean, hliterals⟩ := h
    have htext : (sqlText d n (p :: ps)).toList =
        (p.sqlText d n).toList ++ (sqlText d (positionAfter n p) ps).toList :=
      String.toList_append
    have hproper := hclean.proper p List.mem_cons_self
    rw [htext]
    cases p with
    | words w =>
      have hspecial : ∀ c ∈ w.toList, isSpecial c = false := by
        simpa [Piece.isProper] using hproper
      rw [Piece.sqlText, placeholders_append_of_not_mem (d.mark_not_mem hspecial)]
      exact placeholders_sqlText d ⟨hclean.tail, hliterals⟩ n
    | name name =>
      have hsafe : Identifier.Safe name := by
        simpa [Piece.isProper, Identifier.Safe] using hproper
      rw [Piece.sqlText, placeholders_append_of_not_mem (mark_not_mem_quoteName d hsafe)]
      exact placeholders_sqlText d ⟨hclean.tail, hliterals⟩ n
    | literal v => cases hliterals
    | parameter v =>
      have ih := placeholders_sqlText d ⟨hclean.tail, hliterals⟩ (n + 1)
      have hnext : ∀ c ∈ (sqlText d (n + 1) ps).toList.head?, Decimal.isDigit c = false :=
        fun c hc => isDigit_of_isBreak (hclean.head_isBreak rfl (n + 1) c hc)
      rw [Piece.sqlText, parameters_parameter, List.length_cons, List.range'_succ, List.map_cons,
        ← ih]
      exact d.placeholders_placeholder n hnext

/-! ## Assigned columns -/

namespace Lexeme

/-- The name that a lexeme is. -/
def name? : Lexeme → Option String
  | .name s => some s
  | _ => none

/-- The word that a lexeme is. -/
def word? : Lexeme → Option String
  | .word s => some s
  | _ => none

/-- The items of a list, with commas between them and a parenthesis at its end, and what follows. -/
def listed? (item? : Lexeme → Option String) : List Lexeme → Option (List String × List Lexeme)
  | s :: .mark c :: r =>
    if c = ',' then do
      let first ← item? s
      let (items, rest) ← listed? item? r
      return (first :: items, rest)
    else if c = ')' then (item? s).map fun last => ([last], r)
    else none
  | _ => none

/-- The columns of a row and the placeholders of its values, each in parentheses. -/
def row? (lexemes : List Lexeme) : Option (List (String × String)) :=
  match lexemes with
  | .mark '(' :: r => do
    let (columns, r) ← listed? name? r
    match r with
    | .word "VALUES" :: .mark '(' :: r => do
      let (places, r) ← listed? word? r
      if r.isEmpty ∧ columns.length = places.length then return columns.zip places else none
    | _ => none
  | [.word "DEFAULT", .word "VALUES"] => some []
  | _ => none

/-- The assignments of an update up to its condition: a column, an equals sign and a placeholder,
with commas between them. -/
def assignments? : List Lexeme → Option (List (String × String))
  | .name column :: .word sign :: .word place :: r =>
    if sign = "=" then
      match r with
      | [] => some [(column, place)]
      | .mark c :: r =>
        if c = ',' then (assignments? r).map ((column, place) :: ·) else none
      | s :: _ => if s = .word "WHERE" then some [(column, place)] else none
    else none
  | _ => none

/-- The columns that a statement assigns to, each with the placeholder of its value. -/
def assigned? : List Lexeme → Option (List (String × String))
  | .word "INSERT" :: .word "INTO" :: .name _ :: r => row? r
  | .word "UPDATE" :: .name _ :: .word "SET" :: r => assignments? r
  | _ => none

end Lexeme

/-- The columns that a statement assigns to, each with the placeholder of its value, read off the
text. -/
def Statement.assigned? (s : Statement) : Option (List (String × String)) :=
  s.unbound?.bind Lexeme.assigned?

/-! ## Reading the assigned columns back -/

theorem assigned?_insert (table : String) (r : List Lexeme) :
    Lexeme.assigned? (.word "INSERT" :: .word "INTO" :: .name table :: r) = row? r :=
  rfl

theorem assigned?_update (table : String) (r : List Lexeme) :
    Lexeme.assigned? (.word "UPDATE" :: .name table :: .word "SET" :: r) =
      Lexeme.assignments? r :=
  rfl

/-- A row is its columns and as many placeholders. -/
theorem row?_of_listed {r values : List Lexeme} {columns places : List String}
    (hcolumns : listed? name? r = some (columns, .word "VALUES" :: .mark '(' :: values))
    (hplaces : listed? word? values = some (places, []))
    (hlength : columns.length = places.length) :
    row? (.mark '(' :: r) = some (columns.zip places) := by
  show (listed? name? r).bind _ = _
  rw [hcolumns]
  show (listed? word? values).bind _ = _
  rw [hplaces]
  exact if_pos ⟨rfl, hlength⟩

/-- A list of names is read up to its parenthesis. -/
theorem listed?_names (d : Dialect) (n : Nat) (r : List Lexeme) : ∀ {names : List String},
    names ≠ [] →
      listed? name? (unbound d n (Piece.commas (names.map fun s => [.name s])) ++
        .mark ')' :: r) = some (names, r)
  | [], h => absurd rfl h
  | [s], _ => by
    show listed? name? (unbound d n [.name s] ++ .mark ')' :: r) = _
    rw [unbound_name]
    rfl
  | s :: s' :: names, _ => by
    have ih := listed?_names d n r (List.cons_ne_nil s' names)
    show listed? name? (unbound d n (.name s :: .words ", " ::
      Piece.commas ((s' :: names).map fun s => [.name s])) ++ .mark ')' :: r) = _
    rw [unbound_name, unbound_words]
    show (listed? name? (unbound d n (Piece.commas ((s' :: names).map fun s => [.name s])) ++
      .mark ')' :: r)).bind _ = _
    rw [ih]
    rfl

/-- A list of values is read up to its parenthesis, as their placeholders. -/
theorem listed?_places (d : Dialect) (r : List Lexeme) : ∀ (n : Nat) {vs : List Value},
    vs ≠ [] →
      listed? word? (unbound d n (Piece.commas (vs.map fun v => [.parameter v])) ++
        .mark ')' :: r) = some ((List.range' n vs.length).map d.placeholder, r)
  | _, [], h => absurd rfl h
  | n, [v], _ => by
    show listed? word? (unbound d n [.parameter v] ++ .mark ')' :: r) = _
    rw [unbound_parameter]
    rfl
  | n, v :: v' :: vs, _ => by
    have ih := listed?_places d r (n + 1) (List.cons_ne_nil v' vs)
    show listed? word? (unbound d n (.parameter v :: .words ", " ::
      Piece.commas ((v' :: vs).map fun v => [.parameter v])) ++ .mark ')' :: r) = _
    rw [unbound_parameter, unbound_words]
    show (listed? word? (unbound d (n + 1)
      (Piece.commas ((v' :: vs).map fun v => [.parameter v])) ++ .mark ')' :: r)).bind _ = _
    rw [ih]
    rfl

/-- A condition starts with its own word. -/
theorem Predicate.wherePieces_head {vars : Variables} {p : Option Predicate} {ps : List Piece}
    (h : wherePieces vars p = .ok ps) : ps = [] ∨ ∃ r, ps = .words " WHERE " :: r := by
  cases p with
  | none =>
    cases h
    exact Or.inl rfl
  | some p =>
    obtain ⟨-, -, h⟩ := bind_eq_ok_iff.mp h
    obtain ⟨inner, -, h⟩ := bind_eq_ok_iff.mp h
    cases h
    exact Or.inr ⟨inner, rfl⟩

/-- The assignments of an update are read up to its condition. -/
theorem assignments?_zipWith (d : Dialect) {condition : List Piece}
    (hc : condition = [] ∨ ∃ r, condition = .words " WHERE " :: r) :
    ∀ (n : Nat) {names : List String} {vs : List Value}, names.length = vs.length → names ≠ [] →
      Lexeme.assignments? (unbound d n (Piece.commas (List.zipWith
        (fun s v => [.name s, .words " = ", .parameter v]) names vs) ++ condition)) =
          some (names.zip ((List.range' n vs.length).map d.placeholder))
  | _, [], _, _, h => absurd rfl h
  | _, _ :: _, [], h, _ => by simp at h
  | n, [s], [v], _, _ => by
    show Lexeme.assignments? (unbound d n (.name s :: .words " = " :: .parameter v ::
      condition)) = _
    rw [unbound_name, unbound_words, unbound_parameter]
    rcases hc with rfl | ⟨r, rfl⟩
    · rfl
    · rw [unbound_words]
      rfl
  | _, [_], _ :: _ :: _, h, _ => by simp at h
  | _, _ :: _ :: _, [_], h, _ => by simp at h
  | n, s :: s' :: names, v :: v' :: vs, h, _ => by
    have hlength : (s' :: names).length = (v' :: vs).length := Nat.succ.inj h
    have ih := assignments?_zipWith d hc (n + 1) hlength (List.cons_ne_nil s' names)
    show Lexeme.assignments? (unbound d n (.name s :: .words " = " :: .parameter v ::
      .words ", " :: (Piece.commas (List.zipWith
        (fun s v => [.name s, .words " = ", .parameter v]) (s' :: names) (v' :: vs)) ++
          condition))) = _
    rw [unbound_name, unbound_words, unbound_parameter, unbound_words]
    show (Lexeme.assignments? (unbound d (n + 1) _)).map _ = _
    rw [ih]
    rfl

theorem Insert.assigned?_pieces {d : Dialect} {vars : Variables} {q : Insert} {ps : List Piece}
    (h : q.pieces vars = .ok ps) : Lexeme.assigned? (unbound d 1 ps) =
      some ((q.values.map Prod.fst).zip
        ((List.range' 1 q.values.length).map d.placeholder)) := by
  rcases pieces_ok h with ⟨hempty, rfl⟩ | ⟨vs, hvs, hne, rfl⟩
  · rw [hempty]
    rfl
  · have hlength : vs.length = q.values.length := by
      rw [← hvs.length_eq, List.length_map]
    have hnames : q.values.map Prod.fst ≠ [] := by
      simpa using hne
    have hvalues : vs ≠ [] := by
      rintro rfl
      exact hne (List.length_eq_zero_iff.mp hlength.symm)
    have htext : unbound d 1 ([Piece.words "INSERT INTO ", .name q.collection.identity,
        .words " ("] ++ Piece.commas ((q.values.map Prod.fst).map fun s => [Piece.name s]) ++
          [Piece.words ") VALUES ("] ++ Piece.commas (vs.map fun v => [Piece.parameter v]) ++
            [Piece.words ")"]) =
        .word "INSERT" :: .word "INTO" :: .name q.collection.identity :: .mark '(' ::
          (unbound d 1 (Piece.commas ((q.values.map Prod.fst).map fun s => [Piece.name s])) ++
            .mark ')' :: .word "VALUES" :: .mark '(' ::
              (unbound d 1 (Piece.commas (vs.map fun v => [Piece.parameter v])) ++
                [Lexeme.mark ')'])) := by
      simp only [List.append_assoc, List.cons_append, List.nil_append, unbound_words, unbound_name,
        unbound_append, parameters_names, List.length_nil, Nat.add_zero]
      rfl
    rw [htext, assigned?_insert, row?_of_listed (listed?_names d 1 _ hnames)
      (listed?_places d [] 1 hvalues) (by simp [hlength]), hlength]

theorem Update.assigned?_pieces {d : Dialect} {vars : Variables} {q : Update} {ps : List Piece}
    (h : q.pieces vars = .ok ps) : Lexeme.assigned? (unbound d 1 ps) =
      some ((q.values.map Prod.fst).zip
        ((List.range' 1 q.values.length).map d.placeholder)) := by
  obtain ⟨hempty, assignments, condition, hassignments, hcondition, rfl⟩ := pieces_eq_ok_iff.mp h
  obtain ⟨vs, hvs, rfl⟩ := assignments_ok hassignments
  have hlength : vs.length = q.values.length := by
    rw [← hvs.length_eq, List.length_map]
  have hnames : q.values.map Prod.fst ≠ [] := by
    simpa using hempty
  have hc := Predicate.wherePieces_head hcondition
  have htext : unbound d 1 ([Piece.words "UPDATE ", .name q.collection.identity, .words " SET "] ++
      Piece.commas (List.zipWith (fun s v => [Piece.name s, .words " = ", .parameter v])
        (q.values.map Prod.fst) vs) ++ condition) =
      .word "UPDATE" :: .name q.collection.identity :: .word "SET" :: unbound d 1
        (Piece.commas (List.zipWith (fun s v => [Piece.name s, .words " = ", .parameter v])
          (q.values.map Prod.fst) vs) ++ condition) := by
    simp only [List.cons_append, List.nil_append, unbound_words, unbound_name]
    rfl
  rw [htext, assigned?_update,
    assignments?_zipWith d hc 1 (by rw [List.length_map, hlength]) hnames, hlength]

/-! ## Compiled queries -/

namespace Query

/-- The columns that a query assigns to, with their operands. -/
def assignments? : Query → Option Assignments
  | .insert q => some q.values
  | .update q => some q.values
  | _ => none

/-- What holds of inserts and of updates holds of every query that assigns to fields. -/
@[elab_as_elim]
theorem assigning_cases {motive : ∀ (q : Query) (a : Assignments), q.assignments? = some a → Prop}
    (insert : ∀ q, motive (.insert q) q.values rfl)
    (update : ∀ q, motive (.update q) q.values rfl) :
    ∀ (q : Query) (a : Assignments) (hq : q.assignments? = some a), motive q a hq
  | .insert q, _, rfl => insert q
  | .update q, _, rfl => update q

/-- Every column of a compiled insert or update stands with the placeholder at its own place. -/
theorem assigned?_statements {q : Query} {d : Dialect} {vars : Variables} {values : Assignments}
    {s : Statement} (hq : q.assignments? = some values) (h : q.statements d vars = .ok [s]) :
    s.assigned? =
      some ((values.map Prod.fst).zip ((List.range' 1 values.length).map d.placeholder)) := by
  have hread : ∀ {ps}, Plain ps →
      (Statement.ofPieces d ps).assigned? = Lexeme.assigned? (unbound d 1 ps) := fun {ps} hps => by
    rw [Statement.assigned?, hps.1.unbound?_ofPieces, Option.bind_some]
  cases q, values, hq using assigning_cases with
  | insert q =>
    obtain ⟨ps, hps, hs⟩ := map_eq_ok_iff.mp h
    cases hs
    rw [hread (Insert.plain_pieces hps), Insert.assigned?_pieces hps]
  | update q =>
    obtain ⟨ps, hps, hs⟩ := map_eq_ok_iff.mp h
    cases hs
    rw [hread (Update.plain_pieces hps), Update.assigned?_pieces hps]

/-- **Placeholders and parameters line up.** A query on rows compiles to one statement, and its
parameters are the values of the operands, first of the assignments and then of the condition. On
SQLite its text has as many question marks, and on PostgreSQL its placeholders count the parameters
up from one. In an insert and in an update every assigned column stands with the placeholder at its
own place. -/
theorem placeholders_compile {q : Query} {d : Dialect} {vars : Variables} {cq : CompiledQuery}
    (hq : q.kind.isOnRows = true) (h : q.compile d vars = .ok cq) :
    ∃ s, cq.statements = [s] ∧ List.Forall₂ (Operand.Stands vars) q.operands s.parameters ∧
      (d = .sqlite → s.sql.toList.count '?' = s.parameters.length) ∧
      (d = .postgres → placeholders '$' s.sql.toList =
        (List.range' 1 s.parameters.length).map fun k => "$" ++ Decimal.showNat k) ∧
      ∀ values, q.assignments? = some values → s.assigned? =
        some ((values.map Prod.fst).zip ((List.range' 1 values.length).map d.placeholder)) := by
  obtain ⟨ss, hss, h⟩ := bind_eq_ok_iff.mp h
  cases h
  obtain ⟨ps, rfl, hplain, hstands⟩ := stands_pieces hq hss
  have hplaces := hplain.placeholders_sqlText d 1
  refine ⟨_, rfl, hstands, ?_, ?_, fun values hvalues => assigned?_statements hvalues hss⟩
  · rintro rfl
    show (sqlText .sqlite 1 ps).toList.count (Dialect.mark .sqlite) = (parameters ps).length
    rw [← length_placeholders, hplaces, List.length_map, List.length_range']
  · rintro rfl
    exact hplaces

end Query

namespace Posts

/-- A new title and number of views for some posts, the title being looked for as well. -/
def retitling : Query :=
  .update ⟨collection, [("title", .variable "title"), ("views", .value (.int 3))],
    some (.all [.inList "id" [.value (.int 1), .variable "id"] false,
      .compare "title" .notEq (.variable "title")])⟩

/-- The variables of a new title. -/
def given : Variables := [("id", .int 7), ("title", .text "$9?")]

end Posts

/-- Two assignments and three operands of a condition are numbered through. -/
theorem Query.placeholders_compile_of_posts :
    ∃ cq, Posts.retitling.compile .postgres Posts.given = .ok cq ∧ ∃ s, cq.statements = [s] ∧
      s.parameters = [.text "$9?", .int 3, .int 1, .int 7, .text "$9?"] ∧
      placeholders '$' s.sql.toList = ["$1", "$2", "$3", "$4", "$5"] ∧
      s.assigned? = some [("title", "$1"), ("views", "$2")] := by
  have hcompile : ∃ cq, Posts.retitling.compile .postgres Posts.given = .ok cq := ⟨_, rfl⟩
  obtain ⟨cq, hcq⟩ := hcompile
  obtain ⟨s, hs, hstands, -, hplaces, hassigned⟩ := Query.placeholders_compile rfl hcq
  have hvalues : s.parameters = [.text "$9?", .int 3, .int 1, .int 7, .text "$9?"] := by
    have hoperands : Posts.retitling.operands = [.variable "title", .value (.int 3),
      .value (.int 1), .variable "id", .variable "title"] := rfl
    rw [hoperands] at hstands
    simpa [List.forall₂_cons_left_iff, Operand.Stands, Posts.given, List.lookup, eq_comm]
      using hstands
  refine ⟨cq, hcq, s, hs, hvalues, ?_, ?_⟩
  · rw [hplaces rfl, hvalues]
    decide +kernel
  · rw [hassigned _ rfl]
    decide +kernel

end SchemaMigration
