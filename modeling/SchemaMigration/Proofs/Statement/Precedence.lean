import SchemaMigration.Proofs.Statement.Lexemes

/-!
# Reading the pieces of a predicate

The pieces of a predicate are read back to a condition of the same truth value, whatever surrounds
them.

* `Spells`: pieces that are read to items.
* `Supplies`: items that are one operand; `Fills`: items that are a whole condition.
* `Connective.fills_chain`: operands with one connective between them are read as a chain of it.
* **`Predicate.reads_pieces`**: the pieces of a predicate are a condition of its truth value; those
  of a predicate that is no compound are one operand.
-/

namespace SchemaMigration

/-! ## Items of pieces -/

theorem Reading.steps_append {reading next last : Reading} {lexemes lexemes' : List Lexeme}
    {items items' : List Item} (h : reading.steps lexemes = some (next, items))
    (h' : next.steps lexemes' = some (last, items')) :
    reading.steps (lexemes ++ lexemes') = some (last, items ++ items') := by
  induction lexemes generalizing reading items with
  | nil =>
    cases h
    exact h'
  | cons s lexemes ih =>
    obtain ⟨⟨middle, first⟩, hstep, h⟩ := Option.bind_eq_some_iff.mp h
    obtain ⟨⟨end', rest⟩, hrest, h⟩ := Option.map_eq_some_iff.mp h
    cases h
    rw [List.cons_append, steps, hstep, Option.bind_some, ih hrest]
    simp

/-- The pieces are read to the items, from one test to the next. -/
def Spells (ps : List Piece) (items : List Item) : Prop :=
  Reading.steps .start (ps.flatMap Piece.lexemes) = some (.start, items)

namespace Spells

theorem nil : Spells [] [] :=
  rfl

theorem append {ps qs : List Piece} {items items' : List Item} (hp : Spells ps items)
    (hq : Spells qs items') : Spells (ps ++ qs) (items ++ items') := by
  unfold Spells
  rw [List.flatMap_append]
  exact Reading.steps_append hp hq

theorem words {w : String} {lexemes : List Lexeme} {items : List Item}
    (hw : (Piece.words w).lexemes = lexemes)
    (h : Reading.steps .start lexemes = some (.start, items)) : Spells [.words w] items := by
  unfold Spells
  rw [List.flatMap_singleton, hw, h]

theorem opening : Spells [.words "("] [.opening] :=
  words (by decide) (rfl : Reading.steps .start [.mark '('] = _)

theorem closing : Spells [.words ")"] [.closing] :=
  words (by decide) (rfl : Reading.steps .start [.mark ')'] = _)

theorem negation : Spells [.words "NOT ("] [.not, .opening] :=
  words (by decide) (rfl : Reading.steps .start [.word "NOT", .mark '('] = _)

theorem equal : Spells [.words "1 = 1"] [.test (.equal 1 1)] :=
  words (by decide) (rfl : Reading.steps .start [.word "1", .word "=", .word "1"] = _)

theorem unequal : Spells [.words "1 = 0"] [.test (.equal 1 0)] :=
  words (by decide) (rfl : Reading.steps .start [.word "1", .word "=", .word "0"] = _)

theorem comparison (field : String) (op : Comparison) (v : Value) :
    Spells [.name field, .words (" " ++ op.operator ++ " "), .parameter v]
      [.test (.test (.compare field op v))] := by
  have hw : (Piece.words (" " ++ op.operator ++ " ")).lexemes = [.word op.operator] := by
    cases op <;> decide
  show Reading.steps .start
    ([Lexeme.name field] ++ ((Piece.words _).lexemes ++ [Lexeme.value v])) = _
  rw [hw]
  cases op <;> rfl

theorem nullTest (field : String) (negated : Bool) :
    Spells [.name field, .words (Predicate.nullWords negated)]
      [.test (.test (.isNull field negated))] := by
  have hw : (Piece.words (Predicate.nullWords negated)).lexemes =
      if negated then [.word "IS", .word "NOT", .word "NULL"] else [.word "IS", .word "NULL"] := by
    cases negated <;> decide
  show Reading.steps .start ([Lexeme.name field] ++ ((Piece.words _).lexemes ++ [])) = _
  rw [hw]
  cases negated <;> rfl

/-- The values of a membership test, one or more. -/
theorem steps_values (field : String) (negated : Bool) : ∀ (v : Value) (vs values : List Value),
    Reading.steps (.listed field negated values)
        ((Piece.commas ((v :: vs).map fun v => [Piece.parameter v])).flatMap Piece.lexemes) =
      some (.member field negated (values ++ v :: vs), [])
  | v, [], values => rfl
  | v, w :: vs, values => by
    have ih := steps_values field negated w vs (values ++ [v])
    have hcomma : (Piece.words ", ").lexemes = [.mark ','] := by decide
    have hfirst : Reading.steps (.listed field negated values) [.value v, .mark ','] =
        some (.listed field negated (values ++ [v]), []) := rfl
    have hlexemes : (Piece.commas ((v :: w :: vs).map fun v => [Piece.parameter v])).flatMap
        Piece.lexemes = [Lexeme.value v, Lexeme.mark ','] ++
          (Piece.commas ((w :: vs).map fun v => [Piece.parameter v])).flatMap Piece.lexemes := by
      show ([Piece.parameter v] ++ [Piece.words ", "] ++
        Piece.commas ((w :: vs).map fun v => [Piece.parameter v])).flatMap Piece.lexemes = _
      rw [List.flatMap_append, List.flatMap_append, List.flatMap_singleton,
        List.flatMap_singleton, hcomma]
      rfl
    rw [hlexemes, Reading.steps_append hfirst ih, List.append_assoc]
    rfl

theorem membership (field : String) (negated : Bool) {vs : List Value} (h : vs ≠ []) :
    Spells ([Piece.name field, Piece.words (Predicate.membershipWords negated)] ++
        Piece.commas (vs.map fun v => [Piece.parameter v]) ++ [Piece.words ")"])
      [.test (.test (.inList field vs negated))] := by
  obtain ⟨v, vs, rfl⟩ := List.exists_cons_of_ne_nil h
  have hopening : Reading.steps .start
      ([Piece.name field, .words (Predicate.membershipWords negated)].flatMap Piece.lexemes) =
        some (.listed field negated [], []) := by
    have hw : (Piece.words (Predicate.membershipWords negated)).lexemes =
        (if negated then [Lexeme.word "NOT", Lexeme.word "IN"] else [Lexeme.word "IN"]) ++
          [Lexeme.mark '('] := by
      cases negated <;> decide
    show Reading.steps .start ([Lexeme.name field] ++ ((Piece.words _).lexemes ++ [])) = _
    rw [hw]
    cases negated <;> rfl
  have hclosing : Reading.steps (.member field negated (v :: vs))
      ([Piece.words ")"].flatMap Piece.lexemes) =
        some (.start, [.test (.test (.inList field (v :: vs) negated))]) := by
    have hw : (Piece.words ")").lexemes = [.mark ')'] := by decide
    rw [List.flatMap_singleton, hw]
    rfl
  unfold Spells
  rw [List.flatMap_append, List.flatMap_append]
  exact Reading.steps_append (Reading.steps_append hopening (steps_values field negated v vs []))
    hclosing

end Spells

/-! ## Operands and whole conditions -/

/-- Wherever an operand is due, the items are read as the condition. -/
def Supplies (items : List Item) (c : Condition) : Prop :=
  ∀ f outer r, Frame.read f outer (items ++ r) = (f.supply? c).bind fun g => g.read outer r

/-- Where nothing was read before, everything up to the end of the items is read as the
condition. -/
def Fills (items : List Item) (c : Condition) : Prop :=
  ∃ f : Frame, f.whole? = some c ∧ ∀ outer r, Frame.empty.read outer (items ++ r) = f.read outer r

theorem supplies_test (c : Condition) : Supplies [.test c] c := fun _ _ _ => rfl

section Grouping

variable {items : List Item} {c : Condition}

theorem Supplies.fills (h : Supplies items c) : Fills items c :=
  ⟨⟨none, none, 0, some c⟩, rfl, fun outer r => h .empty outer r⟩

/-- A condition between parentheses is one operand. -/
theorem Fills.enclosed (h : Fills items c) :
    Supplies ([Item.opening] ++ items ++ [Item.closing]) c := by
  obtain ⟨f', hwhole, hread⟩ := h
  intro f outer r
  have hitems : [Item.opening] ++ items ++ [Item.closing] ++ r =
      Item.opening :: (items ++ Item.closing :: r) := by
    simp
  rw [hitems, Frame.read, hread, Frame.read, hwhole, Option.bind_some]
  cases hf : f.operand with
  | none => rfl
  | some a => simp [Frame.supply?, hf]

/-- A condition between parentheses after a negation is one operand. -/
theorem Fills.negated (h : Fills items c) :
    Supplies ([Item.not, Item.opening] ++ items ++ [Item.closing]) (.not c) := by
  intro f outer r
  have henclosed := h.enclosed { f with negations := f.negations + 1 } outer r
  have hitems : [Item.not, Item.opening] ++ items ++ [Item.closing] ++ r =
      Item.not :: ([Item.opening] ++ items ++ [Item.closing] ++ r) := by
    simp
  rw [hitems, Frame.read, henclosed]
  cases hf : f.operand with
  | none => simp [Frame.supply?, hf, Frame.negate]
  | some a => simp [Frame.supply?, hf]

end Grouping

/-! ## Chains of a connective -/

/-- A connective of compounds. -/
inductive Connective where
  | and
  | or

namespace Connective

/-- Its item. -/
def item : Connective → Item
  | .and => .and
  | .or => .or

/-- The words between two members. -/
def words : Connective → String
  | .and => " AND "
  | .or => " OR "

/-- The condition of two members. -/
def condition : Connective → Condition → Condition → Condition
  | .and => .and
  | .or => .or

/-- The truth value of two members. -/
def truth : Connective → Truth → Truth → Truth
  | .and => .and
  | .or => .or

/-- The truth value of no member. -/
def neutral : Connective → Truth
  | .and => .yes
  | .or => .no

/-- What was read when a member is due, after those before it. -/
def frame : Connective → Option Condition → Frame
  | .and, before => ⟨none, before, 0, none⟩
  | .or, before => ⟨before, none, 0, none⟩

theorem neutral_truth (k : Connective) (a : Truth) : k.truth k.neutral a = a := by
  cases k <;> cases a <;> rfl

theorem truth_neutral (k : Connective) (a : Truth) : k.truth a k.neutral = a := by
  cases k <;> cases a <;> rfl

theorem truth_assoc (k : Connective) (a b c : Truth) :
    k.truth (k.truth a b) c = k.truth a (k.truth b c) := by
  cases k <;> cases a <;> cases b <;> cases c <;> rfl

theorem truth_condition (k : Connective) (a b : Condition) (outcome : Atom → Truth) :
    (k.condition a b).truth outcome = k.truth (a.truth outcome) (b.truth outcome) := by
  cases k <;> rfl

/-- A member on top of those before it. -/
theorem supply?_frame (k : Connective) (before : Option Condition) (c : Condition) :
    ∃ f, (k.frame before).supply? c = some f ∧
      f.whole? = some (Frame.join k.condition before c) ∧
        ∀ outer r, f.read outer (k.item :: r) =
          (k.frame (some (Frame.join k.condition before c))).read outer r := by
  cases k with
  | and => exact ⟨⟨none, before, 0, some c⟩, rfl, rfl, fun _ _ => rfl⟩
  | or => exact ⟨⟨before, none, 0, some c⟩, rfl, rfl, fun _ _ => rfl⟩

theorem truth_join (k : Connective) (before : Option Condition) (c : Condition)
    (outcome : Atom → Truth) : (Frame.join k.condition before c).truth outcome =
      k.truth (before.elim k.neutral (Condition.truth outcome)) (c.truth outcome) := by
  cases before with
  | none => exact (k.neutral_truth _).symm
  | some b => exact k.truth_condition b c outcome

/-- Operands with a connective between them are read from left to right, on top of what stands
before them. -/
theorem read_chain (k : Connective) : ∀ (m : List Item × Condition)
    (ms : List (List Item × Condition)), (∀ p ∈ m :: ms, Supplies p.1 p.2) →
      ∀ before : Option Condition, ∃ (f : Frame) (c : Condition), f.whole? = some c ∧
        (∀ outer r, (k.frame before).read outer
          (Text.intersperse [k.item] ((m :: ms).map Prod.fst) ++ r) = f.read outer r) ∧
        ∀ outcome, c.truth outcome =
          k.truth (before.elim k.neutral (Condition.truth outcome))
            (((m :: ms).map fun p => p.2.truth outcome).foldr k.truth k.neutral)
  | m, [], h, before => by
    obtain ⟨f, hsupply, hwhole, -⟩ := k.supply?_frame before m.2
    refine ⟨f, _, hwhole, fun outer r => ?_, fun outcome => ?_⟩
    · show (k.frame before).read outer (m.1 ++ r) = _
      rw [h m (by simp), hsupply, Option.bind_some]
    · show _ = k.truth _ (k.truth (m.2.truth outcome) k.neutral)
      rw [k.truth_join, k.truth_neutral]
  | m, m' :: ms, h, before => by
    rw [List.forall_mem_cons] at h
    obtain ⟨f, hsupply, -, hnext⟩ := k.supply?_frame before m.2
    obtain ⟨g, c, hwhole, hread, htruth⟩ :=
      read_chain k m' ms h.2 (some (Frame.join k.condition before m.2))
    refine ⟨g, c, hwhole, fun outer r => ?_, fun outcome => ?_⟩
    · show (k.frame before).read outer (m.1 ++ [k.item] ++
        Text.intersperse [k.item] ((m' :: ms).map Prod.fst) ++ r) = _
      rw [List.append_assoc, List.append_assoc, h.1, hsupply, Option.bind_some,
        List.singleton_append, hnext, hread]
    · rw [htruth, Option.elim_some, k.truth_join, k.truth_assoc]
      rfl

/-- Operands with a connective between them are a condition. -/
theorem fills_chain (k : Connective) {ms : List (List Item × Condition)} (hne : ms ≠ [])
    (h : ∀ p ∈ ms, Supplies p.1 p.2) :
    ∃ c, Fills (Text.intersperse [k.item] (ms.map Prod.fst)) c ∧
      ∀ outcome, c.truth outcome =
        (ms.map fun p => p.2.truth outcome).foldr k.truth k.neutral := by
  obtain ⟨m, ms, rfl⟩ := List.exists_cons_of_ne_nil hne
  obtain ⟨f, c, hwhole, hread, htruth⟩ := k.read_chain m ms h none
  have hempty : k.frame none = .empty := by
    cases k <;> rfl
  rw [hempty] at hread
  exact ⟨c, ⟨f, hwhole, hread⟩, fun outcome => (htruth outcome).trans (k.neutral_truth _)⟩

theorem spells_words (k : Connective) : Spells [.words k.words] [k.item] := by
  cases k with
  | and => exact Spells.words (by decide) (rfl : Reading.steps .start [.word "AND"] = _)
  | or => exact Spells.words (by decide) (rfl : Reading.steps .start [.word "OR"] = _)

/-- Pieces with the connective between them spell items with the connective between them. -/
theorem spells_chain (k : Connective) {parts : List (List Piece)} {groups : List (List Item)}
    (h : List.Forall₂ Spells parts groups) :
    Spells (Text.intersperse [.words k.words] parts) (Text.intersperse [k.item] groups) := by
  induction h with
  | nil => exact Spells.nil
  | cons hfirst hrest ih =>
    cases hrest with
    | nil => exact hfirst
    | cons hsecond hrest => exact (hfirst.append k.spells_words).append ih

end Connective

/-! ## Predicates -/

namespace Predicate

theorem misuseOfAll?_cons_iff {p : Predicate} {ps : List Predicate} :
    misuseOfAll? (p :: ps) = none ↔ p.misuse? = none ∧ misuseOfAll? ps = none := by
  rw [misuseOfAll?]
  cases p.misuse? <;> simp

theorem misuse?_field_of_misuse? {field : String} {xs : List Operand} {negated : Bool}
    (h : (Predicate.inList field xs negated).misuse? = none) : Identifier.misuse? field = none := by
  rw [misuse?] at h
  cases hfield : Identifier.misuse? field with
  | none => rfl
  | some m => simp [hfield] at h

/-- A membership test without candidates is refused. -/
theorem ne_nil_of_misuse? {field : String} {xs : List Operand} {negated : Bool}
    (h : (Predicate.inList field xs negated).misuse? = none) : xs ≠ [] := by
  rintro rfl
  rw [misuse?] at h
  cases hfield : Identifier.misuse? field <;> simp [hfield] at h

theorem values?_of_forall₂ {vars : Variables} {xs : List Operand} {vs : List Value}
    (h : List.Forall₂ (fun x v => Operand.resolve vars x = .ok v) xs vs) :
    values? vars xs = some vs := by
  induction h with
  | nil => rfl
  | cons hx _ ih =>
    unfold values? at ih ⊢
    rw [List.mapM_cons, hx, ih]
    rfl

theorem spells_enclose {p : Predicate} {ps : List Piece} {items : List Item} {c : Condition}
    (hspells : Spells ps items) (hfills : Fills items c)
    (hsupplies : p.isCompound = false → Supplies items c) :
    ∃ items, Spells (p.enclose ps) items ∧ Supplies items c := by
  unfold enclose
  split
  · exact ⟨_, (Spells.opening.append hspells).append Spells.closing, hfills.enclosed⟩
  · rename_i hp
    exact ⟨items, hspells, hsupplies (by simpa using hp)⟩

/-- The members of a compound with the connective between them. -/
theorem reads_chain (k : Connective) {vars : Variables} {ps : List Predicate}
    {parts : List (List Piece)} {ms : List (List Item × Condition)} (hne : ps ≠ [])
    (hspells : List.Forall₂ Spells parts (ms.map Prod.fst))
    (hsupplies : ∀ m ∈ ms, Supplies m.1 m.2)
    (htruths : ∀ outcome, truths? vars outcome ps = some (ms.map fun m => m.2.truth outcome)) :
    ∃ items c, Spells (Text.intersperse [.words k.words] parts) items ∧ Fills items c ∧
      ∀ outcome, (truths? vars outcome ps).map (List.foldr k.truth k.neutral) =
        some (c.truth outcome) := by
  have hms : ms ≠ [] := by
    rintro rfl
    obtain ⟨p, ps, rfl⟩ := List.exists_cons_of_ne_nil hne
    have h := htruths fun _ => .yes
    obtain ⟨t, -, h⟩ := Option.bind_eq_some_iff.mp h
    obtain ⟨ts, -, h⟩ := Option.bind_eq_some_iff.mp h
    cases h
  obtain ⟨c, hfills, htruth⟩ := k.fills_chain hms hsupplies
  refine ⟨_, c, k.spells_chain hspells, hfills, fun outcome => ?_⟩
  rw [htruths, Option.map_some, htruth]

mutual

/-- **The pieces of a predicate are read back to a condition of its truth value.** -/
theorem reads_pieces {vars : Variables} : ∀ (p : Predicate) {ps : List Piece},
    p.misuse? = none → p.pieces vars = .ok ps → ∃ items c, Spells ps items ∧ Fills items c ∧
      (p.isCompound = false → Supplies items c) ∧
        ∀ outcome, p.truth? vars outcome = some (c.truth outcome)
  | .compare field op x, ps, _, h => by
    obtain ⟨v, rfl, -, hv⟩ := pieces_compare_ok h
    have hsupplies := supplies_test (.test (.compare field op v))
    refine ⟨_, _, Spells.comparison field op v, hsupplies.fills, fun _ => hsupplies, fun _ => ?_⟩
    rw [truth?, hv]
    rfl
  | .isNull field negated, ps, _, h => by
    obtain ⟨rfl, -⟩ := pieces_isNull_ok h
    have hsupplies := supplies_test (.test (.isNull field negated))
    exact ⟨_, _, Spells.nullTest field negated, hsupplies.fills, fun _ => hsupplies, fun _ => rfl⟩
  | .inList field xs negated, ps, hp, h => by
    obtain ⟨vs, rfl, -, hvs⟩ := pieces_inList_ok h
    have hne : vs ≠ [] := by
      rintro rfl
      cases hvs
      exact ne_nil_of_misuse? hp rfl
    have hsupplies := supplies_test (.test (.inList field vs negated))
    refine ⟨_, _, Spells.membership field negated hne, hsupplies.fills, fun _ => hsupplies,
      fun _ => ?_⟩
    rw [truth?, values?_of_forall₂ hvs]
    rfl
  | .all ps', ps, hp, h => by
    obtain ⟨parts, hparts, h⟩ := bind_eq_ok_iff.mp h
    obtain ⟨ms, hspells, hsupplies, htruths⟩ := reads_members ps' hp hparts
    cases h
    by_cases hne : ps' = []
    · subst hne
      rw [if_pos List.isEmpty_nil]
      refine ⟨_, _, Spells.equal, (supplies_test _).fills, fun h => ?_, fun _ => rfl⟩
      cases h
    · obtain ⟨items, c, hspells, hfills, htruth⟩ :=
        reads_chain .and hne hspells hsupplies htruths
      rw [if_neg (by simpa using hne)]
      refine ⟨items, c, hspells, hfills, fun h => ?_, htruth⟩
      cases h
  | .any ps', ps, hp, h => by
    obtain ⟨parts, hparts, h⟩ := bind_eq_ok_iff.mp h
    obtain ⟨ms, hspells, hsupplies, htruths⟩ := reads_members ps' hp hparts
    cases h
    by_cases hne : ps' = []
    · subst hne
      rw [if_pos List.isEmpty_nil]
      refine ⟨_, _, Spells.unequal, (supplies_test _).fills, fun h => ?_, fun _ => rfl⟩
      cases h
    · obtain ⟨items, c, hspells, hfills, htruth⟩ :=
        reads_chain .or hne hspells hsupplies htruths
      rw [if_neg (by simpa using hne)]
      refine ⟨items, c, hspells, hfills, fun h => ?_, htruth⟩
      cases h
  | .not p, ps, hp, h => by
    obtain ⟨inner, hinner, h⟩ := bind_eq_ok_iff.mp h
    cases h
    obtain ⟨items, c, hspells, hfills, -, htruth⟩ := reads_pieces p hp hinner
    have hsupplies := hfills.negated
    refine ⟨_, _, (Spells.negation.append hspells).append Spells.closing, hsupplies.fills,
      fun _ => hsupplies, fun outcome => ?_⟩
    rw [truth?, htruth]
    rfl

/-- The members of a compound are operands. -/
theorem reads_members {vars : Variables} : ∀ (ps : List Predicate) {parts : List (List Piece)},
    misuseOfAll? ps = none → piecesOfMembers vars ps = .ok parts →
      ∃ ms : List (List Item × Condition), List.Forall₂ Spells parts (ms.map Prod.fst) ∧
        (∀ m ∈ ms, Supplies m.1 m.2) ∧
          ∀ outcome, truths? vars outcome ps = some (ms.map fun m => m.2.truth outcome)
  | [], _, _, h => by
    cases h
    exact ⟨[], .nil, by simp, fun _ => rfl⟩
  | p :: ps, _, hp, h => by
    obtain ⟨first, hfirst, h⟩ := bind_eq_ok_iff.mp h
    obtain ⟨rest, hrest, h⟩ := bind_eq_ok_iff.mp h
    cases h
    obtain ⟨hp, hps⟩ := misuseOfAll?_cons_iff.mp hp
    obtain ⟨items, c, hspells, hfills, hsupplies, htruth⟩ := reads_pieces p hp hfirst
    obtain ⟨enclosed, hspells, hsupplies⟩ := spells_enclose hspells hfills hsupplies
    obtain ⟨ms, hmspells, hmsupplies, htruths⟩ := reads_members ps hps hrest
    refine ⟨(enclosed, c) :: ms, .cons hspells hmspells, ?_, fun outcome => ?_⟩
    · rw [List.forall_mem_cons]
      exact ⟨hsupplies, hmsupplies⟩
    · rw [truths?, htruth, htruths]
      rfl

end

end Predicate

end SchemaMigration
