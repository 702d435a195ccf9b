import SchemaMigration.Proofs.Description.Expansion
import SchemaMigration.Proofs.Statement.Parameters

/-!
# The text of a statement tells no values

Two queries on rows that differ in nothing but what their operands stand for are written alike. To
see this the operands are blanked out: a blank query compiles without any variables, and to the same
text as every query that it is a blank of.

About `compile_select`, `compile_insert`, `compile_update` and `compile_delete`.

* `Operand.blank`, `Predicate.blank`, `Query.blank`: what is left of a query when it is not told
  what its operands stand for.
* `sqlText_map_blank`: the text of pieces does not depend on the values that they bind.
* `Predicate.pieces_blank`, by induction on predicates, and `Select.pieces_blank` and so on:
  blanking a query out and compiling it may be done in either order.
* **`Query.compile_alike`**: two queries with one blank compile to one text; only the parameters
  differ.
-/

namespace SchemaMigration

/-! ## Blanks -/

/-- An operand without its value or its name. -/
def Operand.blank (_ : Operand) : Operand :=
  .value .null

namespace Predicate

mutual

/-- A condition whose operands are blank. -/
def blank : Predicate → Predicate
  | .compare field op x => .compare field op x.blank
  | .isNull field negated => .isNull field negated
  | .inList field xs negated => .inList field (xs.map Operand.blank) negated
  | .all ps => .all (blankAll ps)
  | .any ps => .any (blankAll ps)
  | .not p => .not (blank p)

/-- Conditions whose operands are blank. -/
def blankAll : List Predicate → List Predicate
  | [] => []
  | p :: ps => blank p :: blankAll ps

end

end Predicate

/-- Assignments of blank operands to the same fields. -/
def Assignments.blank (a : Assignments) : Assignments :=
  a.map fun entry => (entry.1, entry.2.blank)

/-- A query on rows whose operands are blank. The other queries have no operands. -/
def Query.blank : Query → Query
  | .select q => .select { q with predicate := q.predicate.map Predicate.blank }
  | .insert q => .insert ⟨q.collection, q.values.blank⟩
  | .update q => .update ⟨q.collection, q.values.blank, q.predicate.map Predicate.blank⟩
  | .delete q => .delete ⟨q.collection, q.predicate.map Predicate.blank⟩
  | q => q

namespace Query

@[simp]
theorem kind_blank (q : Query) : q.blank.kind = q.kind := by
  cases q <;> rfl

@[simp]
theorem collection?_blank (q : Query) : q.blank.collection? = q.collection? := by
  cases q <;> rfl

@[simp]
theorem range_blank (q : Query) : q.blank.range = q.range := by
  cases q <;> rfl

end Query

/-! ## Blank pieces -/

/-- A piece without the value that it binds. -/
def Piece.blank : Piece → Piece
  | .parameter _ => .parameter .null
  | p => p

/-- The text of pieces does not depend on the values that they bind. -/
theorem sqlText_map_blank (d : Dialect) (n : Nat) (ps : List Piece) :
    sqlText d n (ps.map Piece.blank) = sqlText d n ps := by
  induction ps generalizing n with
  | nil => rfl
  | cons p ps ih =>
    have hposition : positionAfter n p.blank = positionAfter n p := by
      cases p <;> rfl
    have htext : p.blank.sqlText d n = p.sqlText d n := by
      cases p <;> rfl
    show p.blank.sqlText d n ++ sqlText d (positionAfter n p.blank) (ps.map Piece.blank) = _
    rw [hposition, htext, ih]
    rfl

theorem parameters_map_blank (ps : List Piece) :
    parameters (ps.map Piece.blank) = (parameters ps).map fun _ => .null := by
  unfold parameters
  rw [List.filterMap_map, List.map_filterMap]
  refine List.filterMap_congr fun p _ => ?_
  cases p <;> rfl

/-- Pieces that bind nothing are blank as they are. -/
theorem map_blank_of_parameters_eq_nil {ps : List Piece} (h : parameters ps = []) :
    ps.map Piece.blank = ps := by
  have hnone : ∀ p ∈ ps, p.parameter? = none := List.filterMap_eq_nil_iff.mp h
  refine List.map_congr_left (fun p hp => ?_) |>.trans (List.map_id ps)
  cases p with
  | parameter v => cases hnone _ hp
  | _ => rfl

theorem map_blank_intersperse (w : String) : ∀ groups : List (List Piece),
    (Text.intersperse [.words w] groups).map Piece.blank =
      Text.intersperse [.words w] (groups.map (List.map Piece.blank))
  | [] => rfl
  | [g] => rfl
  | g :: g' :: r => by
    have ih := map_blank_intersperse w (g' :: r)
    show (g ++ [Piece.words w] ++ Text.intersperse [.words w] (g' :: r)).map Piece.blank = _
    rw [List.map_append, ih, List.map_append]
    rfl

/-- What is blanked out member by member is blanked out as a whole. -/
theorem piecesOfAll_blank {α β : Type} (b : α → β) {f : α → Except Error (List Piece)}
    (f' : β → Except Error (List Piece))
    (hf : ∀ a ps, f a = .ok ps → f' (b a) = .ok (ps.map Piece.blank)) :
    ∀ {l : List α} {parts : List (List Piece)}, piecesOfAll f l = .ok parts →
      piecesOfAll f' (l.map b) = .ok (parts.map (List.map Piece.blank))
  | [], _, h => by
    cases h
    rfl
  | a :: r, _, h => by
    obtain ⟨ps, hps, h⟩ := bind_eq_ok_iff.mp h
    obtain ⟨rest, hrest, h⟩ := bind_eq_ok_iff.mp h
    cases h
    exact bind_eq_ok_iff.mpr ⟨_, hf a ps hps,
      bind_eq_ok_iff.mpr ⟨_, piecesOfAll_blank b f' hf hrest, rfl⟩⟩

/-! ## Blank conditions -/

section Conditions

variable {vars : Variables}

theorem Operand.piece_blank {x : Operand} {p : Piece} (h : x.piece vars = .ok p) :
    x.blank.piece [] = .ok p.blank := by
  obtain ⟨v, -, rfl⟩ := Operand.piece_ok h
  rfl

/-- A blank operand has a placeholder too. -/
theorem Operand.pieces_blank {x : Operand} {ps : List Piece}
    (h : (x.piece vars).map (fun p => [p]) = .ok ps) :
    (x.blank.piece []).map (fun p => [p]) = .ok (ps.map Piece.blank) := by
  obtain ⟨p, hp, rfl⟩ := map_eq_ok_iff.mp h
  exact map_eq_ok_iff.mpr ⟨p.blank, Operand.piece_blank hp, rfl⟩

theorem checkedName_blank {name : String} {p : Piece} (h : checkedName name = .ok p) :
    checkedName name = .ok p.blank := by
  obtain ⟨rfl, -⟩ := checkedName_ok h
  exact h

namespace Predicate

mutual

/-- Nothing is wrong with a blank condition that is not wrong with the condition. -/
theorem misuse?_blank : ∀ p : Predicate, p.blank.misuse? = p.misuse?
  | .compare _ _ _ => rfl
  | .isNull _ _ => rfl
  | .inList field xs negated => by
    show (match Identifier.misuse? field with
      | some m => some m
      | none => if (xs.map Operand.blank).isEmpty then some (Misuse.emptyMembership field)
          else none) = _
    rw [List.isEmpty_map]
    rfl
  | .all ps => misuseOfAll?_blank ps
  | .any ps => misuseOfAll?_blank ps
  | .not p => misuse?_blank p

theorem misuseOfAll?_blank : ∀ ps : List Predicate, misuseOfAll? (blankAll ps) = misuseOfAll? ps
  | [] => rfl
  | p :: ps => by
    show (match p.blank.misuse? with
      | some m => some m
      | none => misuseOfAll? (blankAll ps)) = _
    rw [misuse?_blank p, misuseOfAll?_blank ps]
    rfl

end

theorem check_blank (p : Predicate) : p.blank.check = p.check := by
  unfold check
  rw [misuse?_blank]

theorem enclose_blank (p : Predicate) (ps : List Piece) :
    p.blank.enclose (ps.map Piece.blank) = (p.enclose ps).map Piece.blank := by
  cases p <;> simp [blank, enclose, isCompound, Piece.blank]

theorem isEmpty_blankAll (ps : List Predicate) : (blankAll ps).isEmpty = ps.isEmpty := by
  cases ps <;> rfl

/-- The words between the members of a compound, or in their place, hold no values. -/
theorem compound_blank (ps : List Predicate) (parts : List (List Piece)) (w empty : String) :
    (if (blankAll ps).isEmpty then [Piece.words empty]
      else Text.intersperse [.words w] (parts.map (List.map Piece.blank))) =
    (if ps.isEmpty then [Piece.words empty]
      else Text.intersperse [.words w] parts).map Piece.blank := by
  rw [isEmpty_blankAll, ← map_blank_intersperse]
  split <;> rfl

mutual

/-- **A blank condition has the pieces of the condition**, but for the values. -/
theorem pieces_blank : ∀ (p : Predicate) {ps : List Piece}, p.pieces vars = .ok ps →
    p.blank.pieces [] = .ok (ps.map Piece.blank)
  | .compare field op x, ps, h => by
    obtain ⟨name, hname, h⟩ := bind_eq_ok_iff.mp h
    obtain ⟨value, hvalue, h⟩ := bind_eq_ok_iff.mp h
    cases h
    exact bind_eq_ok_iff.mpr ⟨_, checkedName_blank hname,
      bind_eq_ok_iff.mpr ⟨_, Operand.piece_blank hvalue, rfl⟩⟩
  | .isNull field negated, ps, h => by
    obtain ⟨name, hname, h⟩ := bind_eq_ok_iff.mp h
    cases h
    exact bind_eq_ok_iff.mpr ⟨_, checkedName_blank hname, rfl⟩
  | .inList field xs negated, ps, h => by
    obtain ⟨name, hname, h⟩ := bind_eq_ok_iff.mp h
    obtain ⟨values, hvalues, h⟩ := bind_eq_ok_iff.mp h
    cases h
    have hvalues := piecesOfAll_blank Operand.blank (fun x => (x.piece []).map fun p => [p])
      (fun _ _ => Operand.pieces_blank) hvalues
    refine bind_eq_ok_iff.mpr ⟨_, checkedName_blank hname,
      bind_eq_ok_iff.mpr ⟨_, hvalues, ?_⟩⟩
    rw [List.map_append, List.map_append, Piece.commas, Piece.commas, map_blank_intersperse]
    rfl
  | .all ps', ps, h => by
    obtain ⟨parts, hparts, h⟩ := bind_eq_ok_iff.mp h
    cases h
    refine bind_eq_ok_iff.mpr ⟨_, pieces_blankAll ps' hparts, ?_⟩
    exact congrArg Except.ok (compound_blank ps' parts " AND " "1 = 1")
  | .any ps', ps, h => by
    obtain ⟨parts, hparts, h⟩ := bind_eq_ok_iff.mp h
    cases h
    refine bind_eq_ok_iff.mpr ⟨_, pieces_blankAll ps' hparts, ?_⟩
    exact congrArg Except.ok (compound_blank ps' parts " OR " "1 = 0")
  | .not p, ps, h => by
    obtain ⟨inner, hinner, h⟩ := bind_eq_ok_iff.mp h
    cases h
    refine bind_eq_ok_iff.mpr ⟨_, pieces_blank p hinner, ?_⟩
    rw [List.map_append, List.map_append]
    rfl

theorem pieces_blankAll : ∀ (ps : List Predicate) {parts : List (List Piece)},
    piecesOfMembers vars ps = .ok parts →
      piecesOfMembers [] (blankAll ps) = .ok (parts.map (List.map Piece.blank))
  | [], _, h => by
    cases h
    rfl
  | p :: ps, _, h => by
    obtain ⟨first, hfirst, h⟩ := bind_eq_ok_iff.mp h
    obtain ⟨rest, hrest, h⟩ := bind_eq_ok_iff.mp h
    cases h
    refine bind_eq_ok_iff.mpr ⟨_, pieces_blank p hfirst,
      bind_eq_ok_iff.mpr ⟨_, pieces_blankAll ps hrest, ?_⟩⟩
    rw [enclose_blank]
    rfl

end

theorem wherePieces_blank {p : Option Predicate} {ps : List Piece}
    (h : wherePieces vars p = .ok ps) :
    wherePieces [] (p.map blank) = .ok (ps.map Piece.blank) := by
  cases p with
  | none =>
    cases h
    rfl
  | some p =>
    obtain ⟨⟨⟩, hcheck, h⟩ := bind_eq_ok_iff.mp h
    obtain ⟨inner, hinner, h⟩ := bind_eq_ok_iff.mp h
    cases h
    rw [← check_blank] at hcheck
    exact bind_eq_ok_iff.mpr ⟨(), hcheck, bind_eq_ok_iff.mpr ⟨_, pieces_blank p hinner, rfl⟩⟩

end Predicate

end Conditions

/-! ## Blank queries -/

section Rows

variable {vars : Variables} {ps : List Piece}

theorem Select.pieces_blank {d : Dialect} {q : Select} (h : q.pieces d vars = .ok ps) :
    Select.pieces d [] { q with predicate := q.predicate.map Predicate.blank } =
      .ok (ps.map Piece.blank) := by
  obtain ⟨c, fields, condition, order, hc, hfields, hcondition, horder, rfl⟩ :=
    pieces_eq_ok_iff.mp h
  have hnames : (if q.fields.isEmpty then [.words "*"] else fields).map Piece.blank =
      if q.fields.isEmpty then [.words "*"] else fields := by
    refine map_blank_of_parameters_eq_nil ?_
    split
    · rfl
    · exact parameters_fieldPieces hfields
  refine pieces_eq_ok_iff.mpr ⟨c, fields, condition.map Piece.blank, order, hc, hfields,
    Predicate.wherePieces_blank hcondition, horder, ?_⟩
  simp only [List.map_append, hnames, map_blank_of_parameters_eq_nil (parameters_sortPieces horder),
    map_blank_of_parameters_eq_nil (parameters_rangePieces d q.range)]
  rfl

theorem Insert.pieces_blank {q : Insert} (h : q.pieces vars = .ok ps) :
    Insert.pieces [] ⟨q.collection, q.values.blank⟩ = .ok (ps.map Piece.blank) := by
  have hempty : (q.values.blank).isEmpty = q.values.isEmpty := List.isEmpty_map
  have hfst : q.values.blank.map Prod.fst = q.values.map Prod.fst := by
    simp [Assignments.blank]
  unfold pieces at h ⊢
  simp only [hempty, hfst]
  split at h
  · rename_i hvalues
    cases h
    rw [if_pos hvalues]
    rfl
  · rename_i hvalues
    rw [if_neg hvalues]
    obtain ⟨fields, hfields, h⟩ := bind_eq_ok_iff.mp h
    obtain ⟨values, hvalues, h⟩ := bind_eq_ok_iff.mp h
    cases h
    have hvalues := piecesOfAll_blank (fun entry => (entry.1, entry.2.blank))
      (fun entry => (entry.2.piece []).map fun p => [p]) (fun _ _ => Operand.pieces_blank) hvalues
    refine bind_eq_ok_iff.mpr ⟨fields, hfields, bind_eq_ok_iff.mpr ⟨_, hvalues, ?_⟩⟩
    simp only [List.map_append, Piece.commas, map_blank_intersperse,
      map_blank_of_parameters_eq_nil (parameters_fieldPieces hfields)]
    rfl

theorem assignmentPieces_blank {entry : String × Operand} {ps : List Piece}
    (h : assignmentPieces vars entry = .ok ps) :
    assignmentPieces [] (entry.1, entry.2.blank) = .ok (ps.map Piece.blank) := by
  obtain ⟨name, hname, h⟩ := bind_eq_ok_iff.mp h
  obtain ⟨value, hvalue, h⟩ := bind_eq_ok_iff.mp h
  cases h
  exact bind_eq_ok_iff.mpr ⟨_, checkedName_blank hname,
    bind_eq_ok_iff.mpr ⟨_, Operand.piece_blank hvalue, rfl⟩⟩

theorem Update.pieces_blank {q : Update} (h : q.pieces vars = .ok ps) :
    Update.pieces [] ⟨q.collection, q.values.blank, q.predicate.map Predicate.blank⟩ =
      .ok (ps.map Piece.blank) := by
  obtain ⟨hvalues, assignments, condition, hassignments, hcondition, rfl⟩ := pieces_eq_ok_iff.mp h
  have hempty : (q.values.blank).isEmpty = false := List.isEmpty_map.trans hvalues
  have hassignments := piecesOfAll_blank (fun entry : String × Operand => (entry.1, entry.2.blank))
    (assignmentPieces []) (fun _ _ => assignmentPieces_blank) hassignments
  refine pieces_eq_ok_iff.mpr ⟨hempty, _, _, hassignments,
    Predicate.wherePieces_blank hcondition, ?_⟩
  simp only [List.map_append, Piece.commas, map_blank_intersperse]
  rfl

theorem Delete.pieces_blank {q : Delete} (h : q.pieces vars = .ok ps) :
    Delete.pieces [] ⟨q.collection, q.predicate.map Predicate.blank⟩ =
      .ok (ps.map Piece.blank) := by
  obtain ⟨condition, hcondition, h⟩ := bind_eq_ok_iff.mp h
  cases h
  exact bind_eq_ok_iff.mpr ⟨_, Predicate.wherePieces_blank hcondition, by rw [List.map_append]; rfl⟩

end Rows

/-- The statement without the values of its parameters. -/
def Statement.blank (s : Statement) : Statement :=
  ⟨s.sql, s.parameters.map fun _ => .null⟩

theorem Statement.blank_ofPieces (d : Dialect) (ps : List Piece) :
    (Statement.ofPieces d ps).blank = Statement.ofPieces d (ps.map Piece.blank) := by
  rw [blank, ofPieces, ofPieces, sqlText_map_blank, parameters_map_blank]

namespace Query

/-- **Blanking a query on rows out and compiling it** may be done in either order. -/
theorem statements_blank {q : Query} {d : Dialect} {vars : Variables} {ss : List Statement}
    (hq : q.kind.isOnRows = true) (h : q.statements d vars = .ok ss) :
    q.blank.statements d [] = .ok (ss.map Statement.blank) := by
  have hsingle : ∀ {ps}, (Except.ok [Statement.ofPieces d (ps.map Piece.blank)] :
      Except Error (List Statement)) = .ok ([Statement.ofPieces d ps].map Statement.blank) := by
    intro ps
    rw [List.map_singleton, Statement.blank_ofPieces]
  cases q, hq using rows_cases with
  | select q =>
    obtain ⟨ps, hps, rfl⟩ := map_eq_ok_iff.mp h
    exact (congrArg (single d) (Select.pieces_blank hps)).trans hsingle
  | insert q =>
    obtain ⟨ps, hps, rfl⟩ := map_eq_ok_iff.mp h
    exact (congrArg (single d) (Insert.pieces_blank hps)).trans hsingle
  | update q =>
    obtain ⟨ps, hps, rfl⟩ := map_eq_ok_iff.mp h
    exact (congrArg (single d) (Update.pieces_blank hps)).trans hsingle
  | delete q =>
    obtain ⟨ps, hps, rfl⟩ := map_eq_ok_iff.mp h
    exact (congrArg (single d) (Delete.pieces_blank hps)).trans hsingle

/-- **Values do not reach the text.** Two queries on rows that differ only in what their operands
stand for compile, each with its own variables, to one statement of the same text, and agree on all
else; what each binds are the values of its own operands. -/
theorem compile_alike {q q' : Query} {d : Dialect} {vars vars' : Variables}
    {cq cq' : CompiledQuery} (hq : q.kind.isOnRows = true) (halike : q.blank = q'.blank)
    (h : q.compile d vars = .ok cq) (h' : q'.compile d vars' = .ok cq') :
    cq.kind = cq'.kind ∧ cq.collection = cq'.collection ∧ cq.range = cq'.range ∧
      ∃ sql values values', cq.statements = [⟨sql, values⟩] ∧ cq'.statements = [⟨sql, values'⟩] ∧
        List.Forall₂ (Operand.Stands vars) q.operands values ∧
          List.Forall₂ (Operand.Stands vars') q'.operands values' := by
  have hkind : q.kind = q'.kind := by rw [← kind_blank q, halike, kind_blank]
  have hcollection : q.collection? = q'.collection? := by
    rw [← collection?_blank q, halike, collection?_blank]
  have hrange : q.range = q'.range := by rw [← range_blank q, halike, range_blank]
  have hq' : q'.kind.isOnRows = true := hkind ▸ hq
  obtain ⟨ss, hss, h⟩ := bind_eq_ok_iff.mp h
  obtain ⟨ss', hss', h'⟩ := bind_eq_ok_iff.mp h'
  cases h
  cases h'
  obtain ⟨ps, rfl, -, hstands⟩ := stands_pieces hq hss
  obtain ⟨ps', rfl, -, hstands'⟩ := stands_pieces hq' hss'
  have hblank := statements_blank hq hss
  rw [halike, statements_blank hq' hss'] at hblank
  have hblank := (List.cons.inj (Except.ok.inj hblank)).1
  have hsql : sqlText d 1 ps' = sqlText d 1 ps := (Statement.mk.inj hblank).1
  refine ⟨hkind, hcollection, hrange, sqlText d 1 ps, _, _, rfl, ?_, hstands, hstands'⟩
  rw [← hsql]
  rfl

end Query

namespace Posts

/-- A new title for one post. -/
def entitling (title id : Operand) : Query :=
  .update ⟨collection, [("title", title), ("views", .value (.int 3))],
    some (.compare "id" .eq id)⟩

end Posts

/-- A title that would end a literal and a title that is a variable are written alike. -/
theorem Query.compile_alike_of_posts :
    ∃ cq cq', (Posts.entitling (.value (.text "'; --")) (.variable "id")).compile .postgres
        [("id", .int 7)] = .ok cq ∧
      (Posts.entitling (.variable "title") (.value (.int 1))).compile .postgres
        [("title", .null)] = .ok cq' ∧
      (Posts.entitling (.value (.text "'; --")) (.variable "id")).blank =
        (Posts.entitling (.variable "title") (.value (.int 1))).blank ∧ cq.sql = cq'.sql := by
  have hcompile : ∃ cq, (Posts.entitling (.value (.text "'; --")) (.variable "id")).compile
      .postgres [("id", .int 7)] = .ok cq := ⟨_, rfl⟩
  have hcompile' : ∃ cq, (Posts.entitling (.variable "title") (.value (.int 1))).compile
      .postgres [("title", .null)] = .ok cq := ⟨_, rfl⟩
  have halike : (Posts.entitling (.value (.text "'; --")) (.variable "id")).blank =
      (Posts.entitling (.variable "title") (.value (.int 1))).blank := rfl
  obtain ⟨cq, hcq⟩ := hcompile
  obtain ⟨cq', hcq'⟩ := hcompile'
  obtain ⟨-, -, -, sql, _, _, hs, hs', -, -⟩ := Query.compile_alike rfl halike hcq hcq'
  refine ⟨cq, cq', hcq, hcq', halike, ?_⟩
  rw [CompiledQuery.sql, CompiledQuery.sql, hs, hs']
  rfl

end SchemaMigration
