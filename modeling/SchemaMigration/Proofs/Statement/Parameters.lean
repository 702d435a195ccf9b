import SchemaMigration.Proofs.Statement.Separation

/-!
# Parameters of a compiled statement

A statement on rows binds the operands of its query, and nothing else, in the order in which the
query holds them: first what is assigned, then what the condition compares with, from left to right.

* `Operand.Stands`: the value that an operand has among the variables.
* `Insert.pieces_ok`, `Update.pieces_ok`: an insert and an update, written out with these values.
* `Predicate.stands_pieces`, by induction on predicates: the parameters of a condition.
* **`Query.stands_pieces`**: the parameters of a statement on rows.
-/

namespace SchemaMigration

/-! ## Values of operands -/

/-- The value stands in the place of the operand: a literal is itself, and a variable has the value
in the map. -/
def Operand.Stands (vars : Variables) : Operand → Value → Prop
  | .value v, w => v = w
  | .variable name, w => vars.lookup name = some w

theorem Operand.resolve_eq_ok_iff {vars : Variables} {v : Value} : ∀ {x : Operand},
    x.resolve vars = .ok v ↔ x.Stands vars v
  | .value w => by simp [resolve, Stands]
  | .variable name => by
    cases h : vars.lookup name <;> simp [resolve, Stands, h]

/-! ## Parameters of pieces -/

theorem parameters_intersperse (w : String) : ∀ groups : List (List Piece),
    parameters (Text.intersperse [.words w] groups) = groups.flatMap parameters
  | [] => rfl
  | [g] => by simp [Text.intersperse]
  | g :: g' :: r => by
    show parameters (g ++ [Piece.words w] ++ Text.intersperse [.words w] (g' :: r)) = _
    rw [parameters_append, parameters_append, parameters_intersperse w (g' :: r)]
    simp

theorem parameters_values (vs : List Value) :
    parameters (Piece.commas (vs.map fun v => [Piece.parameter v])) = vs := by
  rw [Piece.commas, parameters_intersperse, List.flatMap_map]
  exact List.flatMap_singleton' vs

theorem parameters_commas_eq_nil {groups : List (List Piece)}
    (h : ∀ g ∈ groups, parameters g = []) : parameters (Piece.commas groups) = [] := by
  rw [Piece.commas, parameters_intersperse, List.flatMap_eq_nil_iff]
  exact h

theorem parameters_names (names : List String) :
    parameters (Piece.commas (names.map fun name => [.name name])) = [] :=
  parameters_commas_eq_nil (List.forall_mem_map.mpr fun _ _ => rfl)

theorem piecesOfAll_map {α β : Type} (g : α → β) (f : β → Except Error (List Piece)) :
    ∀ l : List α, piecesOfAll f (l.map g) = piecesOfAll (fun a => f (g a)) l
  | [] => rfl
  | a :: r => by
    show (f (g a) >>= fun ps => piecesOfAll f (r.map g) >>= fun rest => _) = _
    rw [piecesOfAll_map g f r]
    rfl

namespace Predicate

variable {vars : Variables}

theorem parameters_enclose (p : Predicate) (ps : List Piece) :
    parameters (p.enclose ps) = parameters ps := by
  unfold enclose
  split
  · simp [parameters_append]
  · rfl

/-- Words between the members of a compound, or in their place, bind nothing. -/
theorem stands_compound {ps : List Predicate} {parts : List (List Piece)} {w empty : String}
    (h : List.Forall₂ (Operand.Stands vars) (operandsOfAll ps) (parts.flatMap parameters)) :
    List.Forall₂ (Operand.Stands vars) (operandsOfAll ps)
      (parameters (if ps.isEmpty then [.words empty] else Text.intersperse [.words w] parts)) := by
  cases ps with
  | nil => exact .nil
  | cons p ps =>
    show List.Forall₂ _ _ (parameters (Text.intersperse [.words w] parts))
    rw [parameters_intersperse]
    exact h

mutual

/-- The parameters of a predicate are the values of its operands from left to right. -/
theorem stands_pieces : ∀ (p : Predicate) {ps : List Piece}, p.pieces vars = .ok ps →
    List.Forall₂ (Operand.Stands vars) p.operands (parameters ps)
  | .compare field op x, ps, h => by
    obtain ⟨v, rfl, -, hv⟩ := pieces_compare_ok h
    exact .cons (Operand.resolve_eq_ok_iff.mp hv) .nil
  | .isNull field negated, ps, h => by
    obtain ⟨rfl, -⟩ := pieces_isNull_ok h
    exact .nil
  | .inList field xs negated, ps, h => by
    obtain ⟨vs, rfl, -, hvs⟩ := pieces_inList_ok h
    simp only [parameters_append, parameters_values, parameters_name, parameters_words,
      parameters_nil, List.nil_append, List.append_nil]
    exact hvs.imp fun _ _ => Operand.resolve_eq_ok_iff.mp
  | .all ps', ps, h => by
    obtain ⟨parts, hparts, h⟩ := bind_eq_ok_iff.mp h
    cases h
    exact stands_compound (stands_members ps' hparts)
  | .any ps', ps, h => by
    obtain ⟨parts, hparts, h⟩ := bind_eq_ok_iff.mp h
    cases h
    exact stands_compound (stands_members ps' hparts)
  | .not p, ps, h => by
    obtain ⟨inner, hinner, h⟩ := bind_eq_ok_iff.mp h
    cases h
    simp only [parameters_append, parameters_words, parameters_nil, List.nil_append,
      List.append_nil]
    exact stands_pieces p hinner

theorem stands_members : ∀ (ps : List Predicate) {parts : List (List Piece)},
    piecesOfMembers vars ps = .ok parts →
      List.Forall₂ (Operand.Stands vars) (operandsOfAll ps) (parts.flatMap parameters)
  | [], _, h => by
    cases h
    exact .nil
  | p :: ps, _, h => by
    obtain ⟨first, hfirst, h⟩ := bind_eq_ok_iff.mp h
    obtain ⟨rest, hrest, h⟩ := bind_eq_ok_iff.mp h
    cases h
    rw [List.flatMap_cons, parameters_enclose]
    exact List.rel_append (stands_pieces p hfirst) (stands_members ps hrest)

end

theorem stands_wherePieces {p : Option Predicate} {ps : List Piece}
    (h : wherePieces vars p = .ok ps) :
    List.Forall₂ (Operand.Stands vars) (p.toList.flatMap operands) (parameters ps) := by
  cases p with
  | none =>
    cases h
    exact .nil
  | some p =>
    obtain ⟨-, -, h⟩ := bind_eq_ok_iff.mp h
    obtain ⟨inner, hinner, h⟩ := bind_eq_ok_iff.mp h
    cases h
    rw [Option.toList_some, List.flatMap_singleton, parameters_words]
    exact stands_pieces p hinner

end Predicate

/-! ## Queries on rows -/

section Rows

variable {vars : Variables} {ps : List Piece}

theorem parameters_fieldPieces {fields : List String} (h : fieldPieces fields = .ok ps) :
    parameters ps = [] := by
  obtain ⟨rfl, -⟩ := fieldPieces_ok h
  exact parameters_names fields

theorem parameters_sortPieces {terms : List SortTerm} (h : sortPieces terms = .ok ps) :
    parameters ps = [] := by
  obtain ⟨parts, hparts, h⟩ := bind_eq_ok_iff.mp h
  cases h
  split
  · rfl
  · refine parameters_commas_eq_nil (forall_of_piecesOfAll hparts fun term g hg => ?_)
    obtain ⟨name, hname, rfl⟩ := map_eq_ok_iff.mp hg
    obtain ⟨rfl, -⟩ := checkedName_ok hname
    rfl

theorem parameters_rangePieces (d : Dialect) (r : Range) : parameters (r.pieces d) = [] := by
  unfold Range.pieces
  split <;> rfl

/-- What an insert is made of: its columns and as many values, or neither. -/
theorem Insert.pieces_ok {q : Insert} (h : q.pieces vars = .ok ps) :
    (q.values = [] ∧ ps = [.words "INSERT INTO ", .name q.collection.identity,
      .words " DEFAULT VALUES"]) ∨
    ∃ vs, List.Forall₂ (Operand.Stands vars) (q.values.map Prod.snd) vs ∧ q.values ≠ [] ∧
      ps = [Piece.words "INSERT INTO ", .name q.collection.identity, .words " ("] ++
        Piece.commas ((q.values.map Prod.fst).map fun name => [Piece.name name]) ++
          [Piece.words ") VALUES ("] ++ Piece.commas (vs.map fun v => [Piece.parameter v]) ++
            [Piece.words ")"] := by
  unfold pieces at h
  split at h
  · rename_i hempty
    cases h
    exact Or.inl ⟨List.isEmpty_iff.mp hempty, rfl⟩
  · rename_i hempty
    obtain ⟨fields, hfields, h⟩ := bind_eq_ok_iff.mp h
    obtain ⟨values, hvalues, h⟩ := bind_eq_ok_iff.mp h
    cases h
    obtain ⟨rfl, -⟩ := fieldPieces_ok hfields
    rw [← piecesOfAll_map Prod.snd fun x => (Operand.piece vars x).map fun p => [p]] at hvalues
    obtain ⟨vs, rfl, hvs⟩ := Predicate.values_of_piecesOfAll hvalues
    refine Or.inr ⟨vs, hvs.imp fun _ _ => Operand.resolve_eq_ok_iff.mp, ?_, rfl⟩
    rintro hnil
    exact hempty (List.isEmpty_iff.mpr hnil)

/-- The assignments of an update, each with its own value. -/
theorem assignments_ok : ∀ {values : Assignments} {parts : List (List Piece)},
    piecesOfAll (assignmentPieces vars) values = .ok parts →
      ∃ vs, List.Forall₂ (Operand.Stands vars) (values.map Prod.snd) vs ∧
        parts = List.zipWith (fun name v => [.name name, .words " = ", .parameter v])
          (values.map Prod.fst) vs
  | [], _, h => by
    cases h
    exact ⟨[], .nil, rfl⟩
  | entry :: r, _, h => by
    obtain ⟨first, hfirst, h⟩ := bind_eq_ok_iff.mp h
    obtain ⟨rest, hrest, h⟩ := bind_eq_ok_iff.mp h
    cases h
    obtain ⟨v, rfl, -, hv⟩ := assignmentPieces_ok hfirst
    obtain ⟨vs, hvs, rfl⟩ := assignments_ok hrest
    exact ⟨v :: vs, .cons (Operand.resolve_eq_ok_iff.mp hv) hvs, rfl⟩

theorem parameters_assignments : ∀ {names : List String} {vs : List Value},
    names.length = vs.length →
      parameters (Piece.commas (List.zipWith
        (fun name v => [.name name, .words " = ", .parameter v]) names vs)) = vs := by
  intro names vs h
  rw [Piece.commas, parameters_intersperse]
  induction names generalizing vs with
  | nil => cases vs <;> simp_all
  | cons name names ih =>
    cases vs with
    | nil => simp at h
    | cons v vs => exact congrArg (v :: ·) (ih (Nat.succ.inj h))

namespace Query

/-- The condition on the rows of a query. -/
def condition? : Query → Option Predicate
  | .select q => q.predicate
  | .update q => q.predicate
  | .delete q => q.predicate
  | _ => none

/-- The operands of a query on rows: what it assigns, in order, and then the operands of its
condition from left to right. -/
def operands : Query → List Operand
  | .select q => q.predicate.toList.flatMap Predicate.operands
  | .insert q => q.values.map Prod.snd
  | .update q => q.values.map Prod.snd ++ q.predicate.toList.flatMap Predicate.operands
  | .delete q => q.predicate.toList.flatMap Predicate.operands
  | _ => []

end Query

theorem Select.stands_pieces {d : Dialect} {q : Select} (h : q.pieces d vars = .ok ps) :
    List.Forall₂ (Operand.Stands vars) (Query.select q).operands (parameters ps) := by
  obtain ⟨c, fields, condition, order, -, hfields, hcondition, horder, rfl⟩ :=
    pieces_eq_ok_iff.mp h
  have hnone : parameters (if q.fields.isEmpty then [.words "*"] else fields) = [] := by
    split
    · rfl
    · exact parameters_fieldPieces hfields
  simp only [parameters_append, hnone, parameters_sortPieces horder, parameters_rangePieces,
    parameters_words, parameters_name, parameters_nil, List.append_nil, List.nil_append]
  exact Predicate.stands_wherePieces hcondition

theorem Insert.stands_pieces {q : Insert} (h : q.pieces vars = .ok ps) :
    List.Forall₂ (Operand.Stands vars) (Query.insert q).operands (parameters ps) := by
  rcases pieces_ok h with ⟨hempty, rfl⟩ | ⟨vs, hvs, -, rfl⟩
  · show List.Forall₂ _ (q.values.map Prod.snd) _
    rw [hempty]
    exact .nil
  · simp only [parameters_append, parameters_names, parameters_values, parameters_words,
      parameters_name, parameters_nil, List.append_nil, List.nil_append]
    exact hvs

theorem Update.stands_pieces {q : Update} (h : q.pieces vars = .ok ps) :
    List.Forall₂ (Operand.Stands vars) (Query.update q).operands (parameters ps) := by
  obtain ⟨-, assignments, condition, hassignments, hcondition, rfl⟩ := pieces_eq_ok_iff.mp h
  obtain ⟨vs, hvs, rfl⟩ := assignments_ok hassignments
  have hlength : (q.values.map Prod.fst).length = vs.length := by
    rw [← hvs.length_eq, List.length_map, List.length_map]
  rw [parameters_append, parameters_append, parameters_assignments hlength]
  exact List.rel_append hvs (Predicate.stands_wherePieces hcondition)

theorem Delete.stands_pieces {q : Delete} (h : q.pieces vars = .ok ps) :
    List.Forall₂ (Operand.Stands vars) (Query.delete q).operands (parameters ps) := by
  obtain ⟨condition, hcondition, h⟩ := bind_eq_ok_iff.mp h
  cases h
  rw [parameters_append]
  exact Predicate.stands_wherePieces hcondition

end Rows

/-- The queries on rows. -/
def QueryKind.isOnRows : QueryKind → Bool
  | .select | .insert | .update | .delete => true
  | _ => false

/-- What holds of the four queries on rows holds of every query of their kinds. -/
@[elab_as_elim]
theorem Query.rows_cases {motive : ∀ q : Query, q.kind.isOnRows = true → Prop}
    (select : ∀ q, motive (.select q) rfl) (insert : ∀ q, motive (.insert q) rfl)
    (update : ∀ q, motive (.update q) rfl) (delete : ∀ q, motive (.delete q) rfl) :
    ∀ (q : Query) (hq : q.kind.isOnRows = true), motive q hq
  | .select q, _ => select q
  | .insert q, _ => insert q
  | .update q, _ => update q
  | .delete q, _ => delete q

/-- **The parameters of a statement on rows** are the values of the operands of its query. A query
on rows has one statement, of plain pieces. -/
theorem Query.stands_pieces {q : Query} {d : Dialect} {vars : Variables} {ss : List Statement}
    (hq : q.kind.isOnRows = true) (h : q.statements d vars = .ok ss) :
    ∃ ps, ss = [Statement.ofPieces d ps] ∧ Plain ps ∧
      List.Forall₂ (Operand.Stands vars) q.operands (parameters ps) := by
  cases q, hq using Query.rows_cases with
  | select q =>
    obtain ⟨ps, hps, rfl⟩ := map_eq_ok_iff.mp h
    exact ⟨ps, rfl, Select.plain_pieces hps, Select.stands_pieces hps⟩
  | insert q =>
    obtain ⟨ps, hps, rfl⟩ := map_eq_ok_iff.mp h
    exact ⟨ps, rfl, Insert.plain_pieces hps, Insert.stands_pieces hps⟩
  | update q =>
    obtain ⟨ps, hps, rfl⟩ := map_eq_ok_iff.mp h
    exact ⟨ps, rfl, Update.plain_pieces hps, Update.stands_pieces hps⟩
  | delete q =>
    obtain ⟨ps, hps, rfl⟩ := map_eq_ok_iff.mp h
    exact ⟨ps, rfl, Delete.plain_pieces hps, Delete.stands_pieces hps⟩

end SchemaMigration
