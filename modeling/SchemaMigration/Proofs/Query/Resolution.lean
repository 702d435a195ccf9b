import SchemaMigration.Proofs.Query.Completeness
import SchemaMigration.Proofs.Statement.Placeholders

/-!
# Which variable is missed

A query on rows that was made can only fail for a variable without a value. The variables are
looked up in one order, whatever the statement looks like: those of the assignments, and then those
of the condition from left to right, through lists, negations and compounds inside compounds. So it
is the first variable without a value that is reported.

About `bind`, on what `variables` lists.

* `unresolved?`: the first variable among some operands that has no value.
* `Resolves`: how a computation ends that only looks operands up; `Resolves.bind`: one after the
  other.
* `Predicate.resolves_pieces`: a condition is written by looking up its operands in order, by
  induction on the condition.
* **`Query.Made.compile_resolves`**: which variable a query is refused for, and when it compiles.
-/

namespace SchemaMigration

variable {α β : Type} {vars : Variables}

/-- The first variable among the operands that has no value. -/
def unresolved? (vars : Variables) (xs : List Operand) : Option String :=
  (xs.filterMap Predicate.variableName?).find? fun name => (vars.lookup name).isNone

theorem unresolved?_append (xs ys : List Operand) :
    unresolved? vars (xs ++ ys) = (unresolved? vars xs).or (unresolved? vars ys) := by
  rw [unresolved?, List.filterMap_append, List.find?_append]
  rfl

/-- How a computation ends that looks up the operands in their order and cannot fail otherwise. -/
structure Resolves (vars : Variables) (xs : List Operand) (x : Except Error α) : Prop where
  /-- The first variable without a value is reported. -/
  refused : ∀ {name : String},
    unresolved? vars xs = some name → x = .error (.unresolvedVariable name)
  /-- Otherwise there is a result. -/
  done : unresolved? vars xs = none → ∃ a, x = .ok a

namespace Resolves

variable {xs ys : List Operand} {x : Except Error α}

theorem ok (a : α) : Resolves vars [] (.ok a : Except Error α) :=
  ⟨nofun, fun _ => ⟨a, rfl⟩⟩

theorem of_exists (h : ∃ a, x = .ok a) : Resolves vars [] x :=
  ⟨nofun, fun _ => h⟩

theorem congr (h : Resolves vars xs x) (hxs : xs = ys) : Resolves vars ys x :=
  hxs ▸ h

/-- What is missed first is missed by the first of two parts, or by the second where the first has
a result. -/
theorem bind {f : α → Except Error β} (hx : Resolves vars xs x)
    (hf : ∀ a, x = .ok a → Resolves vars ys (f a)) : Resolves vars (xs ++ ys) (x >>= f) := by
  cases hfirst : unresolved? vars xs with
  | some first =>
    have hmissed : unresolved? vars (xs ++ ys) = some first := by
      rw [unresolved?_append, hfirst, Option.some_or]
    constructor
    · intro name hname
      obtain rfl : first = name := Option.some.inj (hmissed.symm.trans hname)
      rw [hx.refused hfirst]
      rfl
    · intro hnone
      rw [hmissed] at hnone
      cases hnone
  | none =>
    have hmissed : unresolved? vars (xs ++ ys) = unresolved? vars ys := by
      rw [unresolved?_append, hfirst, Option.none_or]
    obtain ⟨a, ha⟩ := hx.done hfirst
    have hrest : Resolves vars ys (x >>= f) := by
      rw [ha]
      exact hf a ha
    constructor
    · intro name hname
      exact hrest.refused (hmissed.symm.trans hname)
    · intro hnone
      exact hrest.done (hmissed.symm.trans hnone)

theorem bind_pure (f : α → β) (hx : Resolves vars xs x) :
    Resolves vars xs (x >>= fun a => pure (f a)) :=
  (hx.bind fun a _ => ok (f a)).congr (List.append_nil xs)

theorem map (f : α → β) (hx : Resolves vars xs x) : Resolves vars xs (x.map f) := by
  constructor
  · intro name hname
    rw [hx.refused hname]
    rfl
  · intro hnone
    obtain ⟨a, rfl⟩ := hx.done hnone
    exact ⟨f a, rfl⟩

/-- The variable that a failure reports is the first without a value. -/
theorem eq_error_iff (h : Resolves vars xs x) {name : String} :
    x = .error (.unresolvedVariable name) ↔ unresolved? vars xs = some name := by
  constructor
  · intro hx
    cases hfirst : unresolved? vars xs with
    | none =>
      obtain ⟨a, ha⟩ := h.done hfirst
      rw [ha] at hx
      cases hx
    | some first =>
      rw [h.refused hfirst] at hx
      cases hx
      rfl
  · exact h.refused

theorem exists_ok_iff (h : Resolves vars xs x) : (∃ a, x = .ok a) ↔ unresolved? vars xs = none := by
  constructor
  · rintro ⟨a, ha⟩
    cases hfirst : unresolved? vars xs with
    | none => rfl
    | some first =>
      rw [h.refused hfirst] at ha
      cases ha
  · exact h.done

end Resolves

/-! ## Operands -/

/-- A variable is reported iff it has no value, and a literal never is. -/
theorem Operand.resolves_resolve (x : Operand) : Resolves vars [x] (x.resolve vars) := by
  cases x with
  | value v => exact ⟨nofun, fun _ => ⟨v, rfl⟩⟩
  | «variable» name =>
    cases hv : vars.lookup name with
    | none =>
      have hrefused : resolve vars (.variable name) = .error (.unresolvedVariable name) := by
        rw [resolve, hv]
      have hfirst : unresolved? vars [.variable name] = some name := by
        simp [unresolved?, Predicate.variableName?, hv]
      refine ⟨fun hname => ?_, fun hnone => ?_⟩
      · rw [hrefused, Option.some.inj (hfirst.symm.trans hname)]
      · rw [hfirst] at hnone
        cases hnone
    | some v =>
      have hfirst : unresolved? vars [.variable name] = none := by
        simp [unresolved?, Predicate.variableName?, hv]
      refine ⟨fun hname => ?_, fun _ => ⟨v, by rw [resolve, hv]⟩⟩
      rw [hfirst] at hname
      cases hname

theorem Operand.resolves_piece (x : Operand) : Resolves vars [x] (x.piece vars) :=
  x.resolves_resolve.map Piece.parameter

theorem resolves_piecesOfAll {f : α → Except Error (List Piece)} {operands : α → List Operand} :
    ∀ {l : List α}, (∀ a ∈ l, Resolves vars (operands a) (f a)) →
      Resolves vars (l.flatMap operands) (piecesOfAll f l)
  | [], _ => Resolves.ok []
  | a :: l, h => by
    obtain ⟨ha, hl⟩ := List.forall_mem_cons.mp h
    rw [List.flatMap_cons]
    exact ha.bind fun ps _ => (resolves_piecesOfAll hl).bind_pure (ps :: ·)

/-! ## Conditions -/

namespace Predicate

mutual

/-- **A well-formed condition** is written by looking up its operands from left to right, by
induction on the condition. -/
theorem resolves_pieces : ∀ (p : Predicate), p.misuse? = none →
    Resolves vars p.operands (p.pieces vars)
  | .compare field op x, hp => by
    rw [pieces, checkedName_of_misuse? hp]
    exact x.resolves_piece.bind_pure _
  | .isNull field negated, hp => by
    rw [pieces, checkedName_of_misuse? hp]
    exact Resolves.ok _
  | .inList field xs negated, hp => by
    have hvalues : Resolves vars (xs.flatMap fun x => [x]) (piecesOfAll _ xs) :=
      resolves_piecesOfAll fun x _ => x.resolves_piece.map fun p => [p]
    rw [List.flatMap_singleton'] at hvalues
    rw [pieces, checkedName_of_misuse? (misuse?_field_of_misuse? hp)]
    exact hvalues.bind_pure _
  | .all ps, hp => (resolves_piecesOfMembers ps hp).bind_pure _
  | .any ps, hp => (resolves_piecesOfMembers ps hp).bind_pure _
  | .not p, hp => (resolves_pieces p hp).bind_pure _

theorem resolves_piecesOfMembers : ∀ (ps : List Predicate), misuseOfAll? ps = none →
    Resolves vars (operandsOfAll ps) (piecesOfMembers vars ps)
  | [], _ => Resolves.ok []
  | p :: ps, hp => by
    obtain ⟨hp, hps⟩ := misuseOfAll?_cons_iff.mp hp
    exact (resolves_pieces p hp).bind fun first _ =>
      (resolves_piecesOfMembers ps hps).bind_pure (p.enclose first :: ·)

end

theorem resolves_wherePieces {p : Option Predicate} (hp : ConditionFits p) :
    Resolves vars (p.toList.flatMap operands) (wherePieces vars p) := by
  cases p with
  | none => exact Resolves.ok []
  | some p =>
    have hcheck : p.check.mapError Error.construction = .ok () :=
      mapError_eq_ok_iff.mpr (check_eq_ok_iff.mpr (hp p rfl))
    rw [wherePieces, hcheck, Option.toList_some, List.flatMap_singleton]
    exact (p.resolves_pieces (hp p rfl)).bind_pure _

end Predicate

/-! ## Queries on rows -/

section Rows

variable {d : Dialect}

theorem Select.Made.resolves_pieces {q : Select} (h : q.Made) (hq : q.collection ≠ none) :
    Resolves vars (Query.select q).operands (q.pieces d vars) := by
  obtain ⟨hfields, hcondition, hsort⟩ := h.wellFormed
  obtain ⟨c, hc⟩ := Option.ne_none_iff_exists'.mp hq
  obtain ⟨fields, hfields⟩ := exists_fieldPieces hfields
  rw [pieces, body, hc]
  simp only [hfields]
  refine Resolves.bind_pure _ (Resolves.congr ?_ (List.append_nil _))
  exact (Predicate.resolves_wherePieces hcondition).bind fun condition _ =>
    (Resolves.of_exists (exists_sortPieces hsort)).bind_pure _

theorem Insert.Made.resolves_pieces {q : Insert} (h : q.Made) :
    Resolves vars (Query.insert q).operands (q.pieces vars) := by
  unfold Insert.pieces
  split
  · rename_i hempty
    have hnone : (Query.insert q).operands = [] := by
      rw [Query.operands, List.isEmpty_iff.mp hempty, List.map_nil]
    exact (Resolves.ok _).congr hnone.symm
  · obtain ⟨fields, hfields⟩ := exists_fieldPieces (List.forall_mem_map.mpr h.named)
    have hvalues : Resolves vars (q.values.flatMap fun entry => [entry.2])
        (piecesOfAll _ q.values) :=
      resolves_piecesOfAll fun entry _ => entry.2.resolves_piece.map fun p => [p]
    rw [← List.map_eq_flatMap] at hvalues
    rw [hfields]
    exact hvalues.bind_pure _

theorem resolves_assignmentPieces {entry : String × Operand}
    (h : Identifier.misuse? entry.1 = none) :
    Resolves vars [entry.2] (assignmentPieces vars entry) := by
  rw [assignmentPieces, checkedName_of_misuse? h]
  exact entry.2.resolves_piece.bind_pure _

theorem Update.Made.resolves_pieces {q : Update} (h : q.Made) (hq : q.values.isEmpty = false) :
    Resolves vars (Query.update q).operands (q.pieces vars) := by
  obtain ⟨hnamed, hcondition⟩ := h.wellFormed
  have hassignments : Resolves vars (q.values.flatMap fun entry => [entry.2])
      (piecesOfAll (assignmentPieces vars) q.values) :=
    resolves_piecesOfAll fun entry hentry => resolves_assignmentPieces (hnamed entry hentry)
  rw [← List.map_eq_flatMap] at hassignments
  rw [pieces, if_neg (Bool.eq_false_iff.mp hq)]
  exact hassignments.bind fun assignments _ =>
    (Predicate.resolves_wherePieces hcondition).bind_pure _

theorem Delete.Made.resolves_pieces {q : Delete} (h : q.Made) :
    Resolves vars (Query.delete q).operands (q.pieces vars) :=
  (Predicate.resolves_wherePieces h.conditionFits).bind_pure _

end Rows

namespace Query

variable {d : Dialect} {q : Query}

/-- A query on rows that misses no part is compiled by looking up its operands in order. -/
theorem Made.resolves_compile (h : q.Made) (hq : q.kind.isOnRows = true)
    (hmissing : q.missing? = none) : Resolves vars q.operands (q.compile d vars) := by
  refine Resolves.bind_pure _ ?_
  cases q, hq using Query.rows_cases with
  | select q =>
    have hcollection : q.collection ≠ none := by simpa [missing?] using hmissing
    exact (h.resolves_pieces hcollection).map _
  | insert q => exact Resolves.map _ (Insert.Made.resolves_pieces h)
  | update q =>
    have hvalues : q.values.isEmpty = false := by simpa [missing?] using hmissing
    exact (h.resolves_pieces hvalues).map _
  | delete q => exact Resolves.map _ (Delete.Made.resolves_pieces h)

/-- The names of the variables in the order in which they are looked up: those that are assigned,
and then those of the condition. -/
def lookedUp (q : Query) : List String :=
  ((q.assignments?.getD []).map Prod.snd).filterMap Predicate.variableName? ++
    q.condition?.toList.flatMap Predicate.variableNames

theorem filterMap_operands (hq : q.kind.isOnRows = true) :
    q.operands.filterMap Predicate.variableName? = q.lookedUp := by
  have hcondition : ∀ p : Option Predicate,
      (p.toList.flatMap Predicate.operands).filterMap Predicate.variableName? =
        p.toList.flatMap Predicate.variableNames := fun p =>
    List.filterMap_flatMap
  cases q, hq using Query.rows_cases with
  | select q => exact hcondition q.predicate
  | insert q => exact (List.append_nil _).symm
  | update q => exact List.filterMap_append.trans (congrArg _ (hcondition q.predicate))
  | delete q => exact hcondition q.predicate

/-- **Variable resolution is exact**: a query on rows that was made and misses no part is refused
for a variable iff that is the first one without a value, in the order of the assignments and then
of the condition, and it compiles iff every one has a value. Where no values are given, none of them
has one. -/
theorem Made.compile_resolves (h : q.Made) (hq : q.kind.isOnRows = true)
    (hmissing : q.missing? = none) (given : Option Variables) :
    (∀ name, q.compile d (given.getD []) = .error (.unresolvedVariable name) ↔
      q.lookedUp.find? (fun name => (given.bind fun vars => vars.lookup name).isNone) = some name) ∧
    ((∃ cq, q.compile d (given.getD []) = .ok cq) ↔
      ∀ name ∈ q.lookedUp, (given.bind fun vars => vars.lookup name).isSome = true) := by
  have hresolves : Resolves (given.getD []) q.operands (q.compile d (given.getD [])) :=
    h.resolves_compile hq hmissing
  have hfirst : unresolved? (given.getD []) q.operands =
      q.lookedUp.find? fun name => (given.bind fun vars => vars.lookup name).isNone := by
    rw [unresolved?, filterMap_operands hq]
    cases given <;> rfl
  constructor
  · intro name
    rw [hresolves.eq_error_iff, hfirst]
  · rw [hresolves.exists_ok_iff, hfirst, List.find?_eq_none]
    simp only [Bool.not_eq_true, Option.isNone_eq_false_iff]

end Query

namespace Posts

/-- The retitling of the posts outside a list, or with an older title. -/
def reviewed : Update :=
  ⟨collection, [("title", .variable "title")],
    some (.any [.not (.inList "id" [.variable "first", .value (.int 2), .variable "last"] false),
      .all [.compare "title" .like (.variable "older"), .isNull "slug" true]])⟩

theorem made_reviewed : reviewed.Made := by
  have hset : (Update.of collection).set "title" (.variable "title") =
      .ok ⟨collection, [("title", .variable "title")], none⟩ := rfl
  exact ((Update.Made.of collection).set hset).alsoMatching
    (p := .any [.not (.inList "id" [.variable "first", .value (.int 2), .variable "last"] false),
      .all [.compare "title" .like (.variable "older"), .isNull "slug" true]]) rfl

end Posts

/-- The title is missed before the list, and the end of the list before the older title. -/
theorem Query.Made.compile_reviewed :
    (Query.update Posts.reviewed).compile .postgres [] = .error (.unresolvedVariable "title") ∧
      (Query.update Posts.reviewed).compile .sqlite [("first", .int 1), ("title", .text "Hello")] =
        .error (.unresolvedVariable "last") ∧
      ∃ cq, (Query.update Posts.reviewed).compile .sqlite
        [("first", .int 1), ("last", .int 9), ("older", .text "Old%"), ("title", .text "Hello")] =
          .ok cq := by
  have hmade : (Query.update Posts.reviewed).Made := Posts.made_reviewed
  refine ⟨?_, ?_, ?_⟩
  · exact (Query.Made.compile_resolves hmade rfl rfl none).1 "title" |>.mpr (by decide)
  · exact (Query.Made.compile_resolves hmade rfl rfl
      (some [("first", .int 1), ("title", .text "Hello")])).1 "last" |>.mpr (by decide)
  · exact (Query.Made.compile_resolves hmade rfl rfl (some [("first", .int 1), ("last", .int 9),
      ("older", .text "Old%"), ("title", .text "Hello")])).2.mpr (by decide)

end SchemaMigration
