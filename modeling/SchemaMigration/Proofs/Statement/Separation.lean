import SchemaMigration.Compile
import SchemaMigration.Proofs.Checks
import SchemaMigration.Proofs.Outcome
import SchemaMigration.Proofs.Statement.Scan
import Mathlib.Data.List.Chain

/-!
# Pieces that are kept apart

Every statement on rows is made of clean pieces: each name in it is checked where it is written, and
words stand around names and values.

* `Identifier.Safe`: the characters of a name are those of identifiers; `toList_quoteName`: such a
  name stands between its quotes as it is.
* `Clean.append`, `Clean.intersperse`: how clean pieces are put together.
* `Plain`: clean pieces without literals.
* `Predicate.pieces_compare_ok`, `Select.pieces_eq_ok_iff` and so on: what predicates and queries
  are made of.
* `Predicate.plain_pieces`, `Select.plain_pieces` and so on: the queries on rows are plain.
-/

namespace SchemaMigration

/-! ## Safe names -/

namespace Identifier

/-- The name is made of the characters of identifiers. -/
def Safe (name : String) : Prop :=
  ∀ c ∈ name.toList, isRest c = true

instance (name : String) : Decidable (Safe name) :=
  decidable_of_iff (name.toList.all isRest = true) List.all_eq_true

theorem safe_of_misuse?_eq_none {name : String} (h : misuse? name = none) : Safe name := by
  have hspelled := (misuse?_eq_none_iff name).mp h
  unfold Safe
  cases hname : name.toList with
  | nil => simp
  | cons c r =>
    rw [hname] at hspelled
    rw [List.forall_mem_cons]
    exact ⟨isRest_of_isStart hspelled.1, hspelled.2⟩

theorem Safe.append {name suffix : String} (h : Safe name) (h' : Safe suffix) :
    Safe (name ++ suffix) := by
  unfold Safe
  rw [String.toList_append, List.forall_mem_append]
  exact ⟨h, h'⟩

end Identifier

open Identifier
open Token (isSpecial)

theorem isSpecial_of_isRest {c : Char} (h : isRest c = true) : isSpecial c = false := by
  by_contra hspecial
  simp only [isSpecial, Token.isQuote, Bool.not_eq_false, Bool.or_eq_true, beq_iff_eq] at hspecial
  rcases hspecial with ((rfl | rfl) | rfl) | rfl <;> exact absurd h (by decide)

/-- A safe name stands between its quotes as it is. -/
theorem toList_quoteName {name : String} (h : Safe name) :
    (quoteName name).toList = '"' :: name.toList ++ ['"'] := by
  have hfree : ∀ c ∈ name.toList, Token.isQuote c = false := fun c hc =>
    isQuote_of_isSpecial (isSpecial_of_isRest (h c hc))
  rw [quoteName, String.toList_ofList, Text.quoted, double_of_quoteFree hfree rfl]

theorem safe_of_partMisuse? {part : String} (h : partMisuse? part = none) : Safe part := by
  unfold partMisuse? at h
  cases hpart : Identifier.misuse? part with
  | none => exact safe_of_misuse?_eq_none hpart
  | some m => simp [hpart] at h

/-- The name of a table is made of the characters of identifiers. -/
theorem CollectionRef.safe_identity (c : CollectionRef) : Safe c.identity := by
  have hname := safe_of_partMisuse? c.name_valid
  unfold identity
  split
  · rename_i s hscope
    have hscope := safe_of_partMisuse? (c.scope_valid s hscope)
    exact (hscope.append (by decide)).append hname
  · exact hname

theorem safe_indexName {table : CollectionRef} {handle : String} (h : Safe handle) :
    Safe (indexName table handle) :=
  ((table.safe_identity.append (by decide)).append h)

theorem Column.safe_name {c : Column} (h : c.misuse? = none) : Safe c.name :=
  safe_of_misuse?_eq_none (Column.misuse?_name h)

theorem Index.safe_names {i : Index} (h : i.misuse? = none) :
    Safe i.name ∧ ∀ f ∈ i.fields, Safe f :=
  ⟨safe_of_misuse?_eq_none (Index.misuse?_name h),
    fun f hf => safe_of_misuse?_eq_none (Index.misuse?_fields h f hf)⟩

/-! ## Words that are read as they stand -/

/-- The text holds neither quotes nor placeholders. -/
def Verbatim (s : String) : Prop :=
  ∀ c ∈ s.toList, isSpecial c = false

instance (s : String) : Decidable (Verbatim s) :=
  decidable_of_iff ((s.toList.all fun c => !isSpecial c) = true) (by simp [Verbatim])

theorem Verbatim.append {s t : String} (hs : Verbatim s) (ht : Verbatim t) :
    Verbatim (s ++ t) := by
  unfold Verbatim
  rw [String.toList_append, List.forall_mem_append]
  exact ⟨hs, ht⟩

theorem verbatim_showNat (n : Nat) : Verbatim (Decimal.showNat n) := by
  unfold Verbatim Decimal.showNat
  rw [String.toList_ofList]
  intro c hc
  exact isSpecial_of_isDigit (List.all_eq_true.mp (Decimal.all_isDigit_digits n) c hc)

theorem isProper_words {s : String} (h : Verbatim s) : (Piece.words s).isProper = true := by
  simpa [Piece.isProper, Verbatim] using h

theorem opens_append {w : String} (h : (Piece.words w).opens = true) (s : String) :
    (Piece.words (w ++ s)).opens = true := by
  obtain ⟨c, hc, hbreak⟩ := (Option.any_eq_true _ _).mp h
  simp [Piece.opens, List.head?_append, hc, hbreak]

theorem closes_append {w : String} (h : (Piece.words w).closes = true) (s : String) :
    (Piece.words (s ++ w)).closes = true := by
  obtain ⟨c, hc, hbreak⟩ := (Option.any_eq_true _ _).mp h
  simp [Piece.closes, List.getLast?_append, hc, hbreak]

/-! ## Putting pieces together -/

/-- The pieces start with words that start with a break, if there are any. -/
def Opens (ps : List Piece) : Prop :=
  ∀ p ∈ ps.head?, p.opens = true

theorem opens_nil : Opens [] := by
  simp [Opens]

theorem opens_cons {p : Piece} (h : p.opens = true) (ps : List Piece) : Opens (p :: ps) := by
  simpa [Opens] using h

theorem opens_words (w : String) (ps : List Piece)
    (h : (Piece.words w).opens = true := by decide) : Opens (.words w :: ps) :=
  opens_cons h ps

theorem Opens.append {ps qs : List Piece} (hp : Opens ps) (hq : Opens qs) : Opens (ps ++ qs) := by
  cases ps with
  | nil => exact hq
  | cons p ps => exact opens_cons (hp p rfl) (ps ++ qs)

theorem isProper_name {name : String} (h : Safe name) : (Piece.name name).isProper = true := by
  simpa [Piece.isProper, Safe] using h

namespace Clean

variable {ps qs : List Piece}

theorem nil : Clean [] :=
  ⟨by simp, List.isChain_nil⟩

theorem cons {p : Piece} (hp : p.isProper = true) (h : p.closes = true ∨ Opens ps)
    (hps : Clean ps) : Clean (p :: ps) := by
  refine ⟨List.forall_mem_cons.mpr ⟨hp, hps.proper⟩, List.isChain_cons.mpr ⟨?_, hps.apart⟩⟩
  intro q hq
  rcases h with h | h
  · exact Or.inl h
  · exact Or.inr (h q hq)

theorem name {name : String} (hn : Safe name) (h : Opens ps) (hps : Clean ps) :
    Clean (.name name :: ps) :=
  cons (isProper_name hn) (Or.inr h) hps

theorem literal (v : Value) (h : Opens ps) (hps : Clean ps) : Clean (.literal v :: ps) :=
  cons rfl (Or.inr h) hps

/-- Words that end with a break go before anything. -/
theorem after (hps : Clean ps) (w : String) (hw : (Piece.words w).isProper = true := by decide)
    (hc : (Piece.words w).closes = true := by decide) : Clean (.words w :: ps) :=
  cons hw (Or.inl hc) hps

theorem append (hp : Clean ps) (hq : Clean qs) (h : Opens qs) : Clean (ps ++ qs) := by
  refine ⟨List.forall_mem_append.mpr ⟨hp.proper, hq.proper⟩, ?_⟩
  exact List.isChain_append.mpr ⟨hp.apart, hq.apart, fun _ _ q hqmem => Or.inr (h q hqmem)⟩

/-- Clean groups with words between them that are breaks on both sides. -/
theorem intersperse {w : String} (hw : (Piece.words w).isProper = true)
    (hopens : (Piece.words w).opens = true) (hcloses : (Piece.words w).closes = true) :
    ∀ {groups : List (List Piece)}, (∀ g ∈ groups, Clean g) →
      Clean (Text.intersperse [.words w] groups)
  | [], _ => nil
  | [g], h => h g (by simp)
  | g :: g' :: r, h => by
    rw [List.forall_mem_cons] at h
    have ih := intersperse hw hopens hcloses h.2
    have hrest := cons hw (Or.inl hcloses) ih
    show Clean (g ++ [Piece.words w] ++ Text.intersperse [.words w] (g' :: r))
    rw [List.append_assoc]
    exact h.1.append hrest (opens_cons hopens _)

theorem commas {groups : List (List Piece)} (h : ∀ g ∈ groups, Clean g) :
    Clean (Piece.commas groups) :=
  intersperse (by decide) (by decide) (by decide) h

end Clean

/-- The values that pieces write into the text. -/
def literals (ps : List Piece) : List Value :=
  ps.filterMap Piece.literal?

theorem literals_append (ps qs : List Piece) : literals (ps ++ qs) = literals ps ++ literals qs :=
  List.filterMap_append

theorem literals_intersperse (w : String) : ∀ groups : List (List Piece),
    literals (Text.intersperse [.words w] groups) = groups.flatMap literals
  | [] => rfl
  | [g] => by simp [Text.intersperse]
  | g :: g' :: r => by
    show literals (g ++ [Piece.words w] ++ Text.intersperse [.words w] (g' :: r)) = _
    rw [literals_append, literals_append, literals_intersperse w (g' :: r)]
    simp [literals, Piece.literal?]

/-! ## Statements on rows -/

/-- Clean pieces without literals. -/
def Plain (ps : List Piece) : Prop :=
  Clean ps ∧ literals ps = []

theorem Plain.nil : Plain [] :=
  ⟨Clean.nil, rfl⟩

theorem Plain.words {w : String} {ps : List Piece} (hw : (Piece.words w).isProper = true)
    (h : (Piece.words w).closes = true ∨ Opens ps) (hps : Plain ps) : Plain (.words w :: ps) :=
  ⟨hps.1.cons hw h, hps.2⟩

theorem Plain.after {ps : List Piece} (hps : Plain ps) (w : String)
    (hw : (Piece.words w).isProper = true := by decide)
    (hc : (Piece.words w).closes = true := by decide) : Plain (.words w :: ps) :=
  ⟨hps.1.after w hw hc, hps.2⟩

theorem Plain.name {name : String} {ps : List Piece} (hn : Safe name) (h : Opens ps)
    (hps : Plain ps) : Plain (.name name :: ps) :=
  ⟨hps.1.name hn h, hps.2⟩

theorem Plain.parameter (v : Value) {ps : List Piece} (h : Opens ps) (hps : Plain ps) :
    Plain (.parameter v :: ps) :=
  ⟨hps.1.cons rfl (Or.inr h), hps.2⟩

theorem Plain.append {ps qs : List Piece} (hp : Plain ps) (hq : Plain qs) (h : Opens qs) :
    Plain (ps ++ qs) :=
  ⟨hp.1.append hq.1 h, by rw [literals_append, hp.2, hq.2]; rfl⟩

theorem Plain.intersperse {w : String} (hw : (Piece.words w).isProper = true)
    (hopens : (Piece.words w).opens = true) (hcloses : (Piece.words w).closes = true)
    {groups : List (List Piece)} (h : ∀ g ∈ groups, Plain g) :
    Plain (Text.intersperse [.words w] groups) := by
  refine ⟨Clean.intersperse hw hopens hcloses fun g hg => (h g hg).1, ?_⟩
  rw [literals_intersperse, List.flatMap_eq_nil_iff]
  exact fun g hg => (h g hg).2

theorem Plain.commas {groups : List (List Piece)} (h : ∀ g ∈ groups, Plain g) :
    Plain (Piece.commas groups) :=
  Plain.intersperse (by decide) (by decide) (by decide) h

theorem plain_close : Plain [.words ")"] :=
  Plain.nil.after ")"

theorem checkedName_ok {name : String} {p : Piece} (h : checkedName name = .ok p) :
    p = .name name ∧ misuse? name = none := by
  unfold checkedName at h
  split at h
  · cases h
  · rename_i hname
    cases h
    exact ⟨rfl, hname⟩

theorem Operand.piece_ok {x : Operand} {vars : Variables} {p : Piece}
    (h : x.piece vars = .ok p) : ∃ v, x.resolve vars = .ok v ∧ p = .parameter v := by
  obtain ⟨v, hv, rfl⟩ := map_eq_ok_iff.mp h
  exact ⟨v, hv, rfl⟩

/-- The pieces of every member, one after the other. -/
theorem piecesOfAll_ok {α : Type} {f : α → Except Error (List Piece)} :
    ∀ {l : List α} {parts : List (List Piece)}, piecesOfAll f l = .ok parts →
      List.Forall₂ (fun a ps => f a = .ok ps) l parts
  | [], _, h => by
    cases h
    exact .nil
  | a :: r, _, h => by
    obtain ⟨ps, hps, h⟩ := bind_eq_ok_iff.mp h
    obtain ⟨rest, hrest, h⟩ := bind_eq_ok_iff.mp h
    cases h
    exact .cons hps (piecesOfAll_ok hrest)

/-- Every member has pieces. -/
theorem forall_mem_of_piecesOfAll {α : Type} {f : α → Except Error (List Piece)} {l : List α}
    {parts : List (List Piece)} (h : piecesOfAll f l = .ok parts) :
    ∀ a ∈ l, ∃ ps, f a = .ok ps := by
  have hall := piecesOfAll_ok h
  clear h
  induction hall with
  | nil => simp
  | cons ha _ ih =>
    rw [List.forall_mem_cons]
    exact ⟨⟨_, ha⟩, ih⟩

/-- What holds of the pieces of each member. -/
theorem forall_of_piecesOfAll {α : Type} {f : α → Except Error (List Piece)}
    {P : List Piece → Prop} {l : List α} {parts : List (List Piece)}
    (h : piecesOfAll f l = .ok parts) (hf : ∀ a ps, f a = .ok ps → P ps) : ∀ g ∈ parts, P g := by
  have hall := piecesOfAll_ok h
  clear h
  induction hall with
  | nil => simp
  | cons h _ ih =>
    rw [List.forall_mem_cons]
    exact ⟨hf _ _ h, ih⟩

/-- The pieces of all members, where those of each one are known. -/
theorem map_of_piecesOfAll {α : Type} {f : α → Except Error (List Piece)} {g : α → List Piece}
    {P : α → Prop} {l : List α} {parts : List (List Piece)} (h : piecesOfAll f l = .ok parts)
    (hf : ∀ a ps, f a = .ok ps → ps = g a ∧ P a) : parts = l.map g ∧ ∀ a ∈ l, P a := by
  have hall := piecesOfAll_ok h
  clear h
  induction hall with
  | nil => exact ⟨rfl, by simp⟩
  | cons ha _ ih =>
    obtain ⟨rfl, hP⟩ := hf _ _ ha
    rw [ih.1, List.forall_mem_cons]
    exact ⟨rfl, hP, ih.2⟩

theorem plain_operand {x : Operand} {vars : Variables} {ps : List Piece}
    (h : (x.piece vars).map (fun p => [p]) = .ok ps) : Plain ps := by
  obtain ⟨p, hp, rfl⟩ := map_eq_ok_iff.mp h
  obtain ⟨v, -, rfl⟩ := Operand.piece_ok hp
  exact Plain.nil.parameter v opens_nil

namespace Predicate

theorem plain_enclose {p : Predicate} {ps : List Piece} (h : Plain ps) : Plain (p.enclose ps) := by
  unfold enclose
  split
  · exact (h.append plain_close (opens_words _ _)).after "("
  · exact h

theorem plain_operatorWords (op : Comparison) :
    (Piece.words (" " ++ op.operator ++ " ")).isProper = true ∧
      (Piece.words (" " ++ op.operator ++ " ")).opens = true ∧
        (Piece.words (" " ++ op.operator ++ " ")).closes = true := by
  cases op <;> decide

theorem pieces_compare_ok {vars : Variables} {field : String} {op : Comparison} {x : Operand}
    {ps : List Piece} (h : (Predicate.compare field op x).pieces vars = .ok ps) :
    ∃ v, ps = [.name field, .words (" " ++ op.operator ++ " "), .parameter v] ∧ Safe field ∧
      x.resolve vars = .ok v := by
  obtain ⟨name, hname, h⟩ := bind_eq_ok_iff.mp h
  obtain ⟨value, hvalue, h⟩ := bind_eq_ok_iff.mp h
  obtain ⟨rfl, hvalid⟩ := checkedName_ok hname
  obtain ⟨v, hv, rfl⟩ := Operand.piece_ok hvalue
  cases h
  exact ⟨v, rfl, safe_of_misuse?_eq_none hvalid, hv⟩

theorem pieces_isNull_ok {vars : Variables} {field : String} {negated : Bool} {ps : List Piece}
    (h : (Predicate.isNull field negated).pieces vars = .ok ps) :
    ps = [.name field, .words (nullWords negated)] ∧ Safe field := by
  obtain ⟨name, hname, h⟩ := bind_eq_ok_iff.mp h
  obtain ⟨rfl, hvalid⟩ := checkedName_ok hname
  cases h
  exact ⟨rfl, safe_of_misuse?_eq_none hvalid⟩

/-- Operands are bound to their values. -/
theorem values_of_piecesOfAll {vars : Variables} {xs : List Operand} {parts : List (List Piece)}
    (h : piecesOfAll (fun x => (Operand.piece vars x).map fun p => [p]) xs = .ok parts) :
    ∃ vs : List Value, parts = vs.map (fun v => [Piece.parameter v]) ∧
      List.Forall₂ (fun x v => Operand.resolve vars x = .ok v) xs vs := by
  have hall := piecesOfAll_ok h
  clear h
  induction hall with
  | nil => exact ⟨[], rfl, .nil⟩
  | cons hx _ ih =>
    obtain ⟨vs, rfl, hvs⟩ := ih
    obtain ⟨p, hp, rfl⟩ := map_eq_ok_iff.mp hx
    obtain ⟨v, hv, rfl⟩ := Operand.piece_ok hp
    exact ⟨v :: vs, rfl, .cons hv hvs⟩

theorem pieces_inList_ok {vars : Variables} {field : String} {xs : List Operand} {negated : Bool}
    {ps : List Piece} (h : (Predicate.inList field xs negated).pieces vars = .ok ps) :
    ∃ vs : List Value, ps = [Piece.name field, .words (membershipWords negated)] ++
        Piece.commas (vs.map fun v => [Piece.parameter v]) ++ [Piece.words ")"] ∧
      Safe field ∧ List.Forall₂ (fun x v => Operand.resolve vars x = .ok v) xs vs := by
  obtain ⟨name, hname, h⟩ := bind_eq_ok_iff.mp h
  obtain ⟨parts, hparts, h⟩ := bind_eq_ok_iff.mp h
  obtain ⟨rfl, hvalid⟩ := checkedName_ok hname
  cases h
  obtain ⟨vs, rfl, hvs⟩ := values_of_piecesOfAll hparts
  exact ⟨vs, rfl, safe_of_misuse?_eq_none hvalid, hvs⟩

mutual

/-- A predicate is written in clean pieces without literals. -/
theorem plain_pieces {vars : Variables} : ∀ (p : Predicate) {ps : List Piece},
    p.pieces vars = .ok ps → Plain ps
  | .compare field op x, ps, h => by
    obtain ⟨v, rfl, hsafe, -⟩ := pieces_compare_ok h
    obtain ⟨hproper, hopens, hcloses⟩ := plain_operatorWords op
    exact ((Plain.nil.parameter v opens_nil).words hproper (Or.inl hcloses)).name hsafe
      (opens_cons hopens _)
  | .isNull field negated, ps, h => by
    obtain ⟨rfl, hsafe⟩ := pieces_isNull_ok h
    have hwords : (Piece.words (nullWords negated)).isProper = true ∧
        (Piece.words (nullWords negated)).opens = true := by
      cases negated <;> decide
    exact (Plain.nil.words hwords.1 (Or.inr opens_nil)).name hsafe (opens_cons hwords.2 _)
  | .inList field xs negated, ps, h => by
    obtain ⟨vs, rfl, hsafe, -⟩ := pieces_inList_ok h
    have hwords : (Piece.words (membershipWords negated)).isProper = true ∧
        (Piece.words (membershipWords negated)).opens = true ∧
          (Piece.words (membershipWords negated)).closes = true := by
      cases negated <;> decide
    have hcommas : Plain (Piece.commas (vs.map fun v => [Piece.parameter v])) := by
      refine Plain.commas (List.forall_mem_map.mpr fun v _ => ?_)
      exact Plain.nil.parameter v opens_nil
    exact ((hcommas.append plain_close (opens_words _ _)).words hwords.1
      (Or.inl hwords.2.2)).name hsafe (opens_cons hwords.2.1 _)
  | .all ps', ps, h => by
    obtain ⟨parts, hparts, h⟩ := bind_eq_ok_iff.mp h
    cases h
    split
    · exact Plain.nil.words (by decide) (Or.inr opens_nil)
    · exact Plain.intersperse (by decide) (by decide) (by decide) (plain_members ps' hparts)
  | .any ps', ps, h => by
    obtain ⟨parts, hparts, h⟩ := bind_eq_ok_iff.mp h
    cases h
    split
    · exact Plain.nil.words (by decide) (Or.inr opens_nil)
    · exact Plain.intersperse (by decide) (by decide) (by decide) (plain_members ps' hparts)
  | .not p, ps, h => by
    obtain ⟨inner, hinner, h⟩ := bind_eq_ok_iff.mp h
    cases h
    exact ((plain_pieces p hinner).append plain_close (opens_words _ _)).after "NOT ("

theorem plain_members {vars : Variables} : ∀ (ps : List Predicate) {parts : List (List Piece)},
    piecesOfMembers vars ps = .ok parts → ∀ g ∈ parts, Plain g
  | [], _, h => by
    cases h
    simp
  | p :: ps, _, h => by
    obtain ⟨first, hfirst, h⟩ := bind_eq_ok_iff.mp h
    obtain ⟨rest, hrest, h⟩ := bind_eq_ok_iff.mp h
    cases h
    rw [List.forall_mem_cons]
    exact ⟨plain_enclose (plain_pieces p hfirst), plain_members ps hrest⟩

end

theorem plain_wherePieces {vars : Variables} {p : Option Predicate} {ps : List Piece}
    (h : wherePieces vars p = .ok ps) : Plain ps ∧ Opens ps := by
  cases p with
  | none =>
    cases h
    exact ⟨Plain.nil, opens_nil⟩
  | some p =>
    obtain ⟨-, -, h⟩ := bind_eq_ok_iff.mp h
    obtain ⟨inner, hinner, h⟩ := bind_eq_ok_iff.mp h
    cases h
    exact ⟨(plain_pieces p hinner).after " WHERE ", opens_words _ _⟩

end Predicate

theorem plain_sortPieces {terms : List SortTerm} {ps : List Piece} (h : sortPieces terms = .ok ps) :
    Plain ps ∧ Opens ps := by
  obtain ⟨parts, hparts, h⟩ := bind_eq_ok_iff.mp h
  have hterms : ∀ g ∈ parts, Plain g := by
    refine forall_of_piecesOfAll hparts fun term ps hps => ?_
    obtain ⟨name, hname, rfl⟩ := map_eq_ok_iff.mp hps
    obtain ⟨rfl, hvalid⟩ := checkedName_ok hname
    have hwords : (Piece.words (" " ++ term.direction.keyword)).isProper = true ∧
        (Piece.words (" " ++ term.direction.keyword)).opens = true := by
      cases term.direction <;> decide
    exact (Plain.nil.words hwords.1 (Or.inr opens_nil)).name (safe_of_misuse?_eq_none hvalid)
      (opens_cons hwords.2 _)
  cases h
  split
  · exact ⟨Plain.nil, opens_nil⟩
  · exact ⟨(Plain.commas hterms).after " ORDER BY ", opens_words _ _⟩

/-- The fields stand between commas, each as its name. -/
theorem fieldPieces_ok {fields : List String} {ps : List Piece} (h : fieldPieces fields = .ok ps) :
    ps = Piece.commas (fields.map fun name => [.name name]) ∧
      ∀ name ∈ fields, misuse? name = none := by
  obtain ⟨parts, hparts, h⟩ := bind_eq_ok_iff.mp h
  cases h
  have hname : ∀ name ps, (checkedName name).map (fun n => [n]) = .ok ps →
      ps = [.name name] ∧ misuse? name = none := by
    intro name ps hps
    obtain ⟨p, hp, rfl⟩ := map_eq_ok_iff.mp hps
    obtain ⟨rfl, hvalid⟩ := checkedName_ok hp
    exact ⟨rfl, hvalid⟩
  obtain ⟨rfl, hvalid⟩ := map_of_piecesOfAll hparts hname
  exact ⟨rfl, hvalid⟩

theorem plain_fieldPieces {fields : List String} {ps : List Piece}
    (h : fieldPieces fields = .ok ps) : Plain ps := by
  obtain ⟨rfl, hvalid⟩ := fieldPieces_ok h
  refine Plain.commas (List.forall_mem_map.mpr fun name hname => ?_)
  exact Plain.nil.name (safe_of_misuse?_eq_none (hvalid name hname)) opens_nil

theorem verbatim_windowWords (d : Dialect) (r : Range) : Verbatim (d.windowWords r) := by
  have hlimit : Verbatim ((r.limit.map fun n => "LIMIT " ++ Decimal.showNat n.toNat).getD "") := by
    cases r.limit with
    | none => decide
    | some n => exact Verbatim.append (by decide) (verbatim_showNat n.toNat)
  have hoffset : Verbatim ("OFFSET " ++ Decimal.showNat r.offset.toNat) :=
    Verbatim.append (by decide) (verbatim_showNat r.offset.toNat)
  have hnone : Verbatim "LIMIT -1" := by decide
  have hblank : Verbatim " " := by decide
  cases d with
  | sqlite =>
    have hlimit : Verbatim (if r.limit.isNone then "LIMIT -1" else
        (r.limit.map fun n => "LIMIT " ++ Decimal.showNat n.toNat).getD "") := by
      split
      · exact hnone
      · exact hlimit
    unfold Dialect.windowWords
    simp only
    split
    · exact hlimit
    · exact (hlimit.append hblank).append hoffset
  | postgres =>
    unfold Dialect.windowWords
    simp only
    split
    · exact hoffset
    · split
      · exact hlimit
      · exact (hlimit.append hblank).append hoffset

theorem Range.plain_pieces (d : Dialect) (r : Range) : Plain (r.pieces d) ∧ Opens (r.pieces d) := by
  unfold Range.pieces
  split
  · exact ⟨Plain.nil, opens_nil⟩
  · have hblank : Verbatim " " := by decide
    have hproper := isProper_words (hblank.append (verbatim_windowWords d r))
    exact ⟨Plain.nil.words hproper (Or.inr opens_nil),
      opens_cons (opens_append (by decide) _) _⟩

/-- What a select is made of. -/
theorem Select.pieces_eq_ok_iff {d : Dialect} {vars : Variables} {q : Select} {ps : List Piece} :
    q.pieces d vars = .ok ps ↔ ∃ c fields condition order, q.collection = some c ∧
      fieldPieces q.fields = .ok fields ∧ Predicate.wherePieces vars q.predicate = .ok condition ∧
        sortPieces q.sort = .ok order ∧
          ps = [Piece.words "SELECT "] ++ (if q.fields.isEmpty then [.words "*"] else fields) ++
            [Piece.words " FROM ", .name c.identity] ++ condition ++ order ++ q.range.pieces d := by
  constructor
  · intro h
    obtain ⟨body, hbody, h⟩ := bind_eq_ok_iff.mp h
    cases h
    unfold Select.body at hbody
    split at hbody
    · cases hbody
    · rename_i c hc
      obtain ⟨fields, hfields, hbody⟩ := bind_eq_ok_iff.mp hbody
      obtain ⟨condition, hcondition, hbody⟩ := bind_eq_ok_iff.mp hbody
      obtain ⟨order, horder, hbody⟩ := bind_eq_ok_iff.mp hbody
      cases hbody
      exact ⟨c, fields, condition, order, hc, hfields, hcondition, horder, rfl⟩
  · rintro ⟨c, fields, condition, order, hc, hfields, hcondition, horder, rfl⟩
    refine bind_eq_ok_iff.mpr ⟨_, ?_, rfl⟩
    unfold Select.body
    rw [hc]
    exact bind_eq_ok_iff.mpr ⟨fields, hfields, bind_eq_ok_iff.mpr ⟨condition, hcondition,
      bind_eq_ok_iff.mpr ⟨order, horder, rfl⟩⟩⟩

theorem Select.plain_pieces {d : Dialect} {vars : Variables} {q : Select} {ps : List Piece}
    (h : q.pieces d vars = .ok ps) : Plain ps := by
  obtain ⟨c, fields, condition, order, -, hfields, hcondition, horder, rfl⟩ :=
    pieces_eq_ok_iff.mp h
  obtain ⟨hcondition, hcopens⟩ := Predicate.plain_wherePieces hcondition
  obtain ⟨horder, hoopens⟩ := plain_sortPieces horder
  obtain ⟨hrange, hropens⟩ := q.range.plain_pieces d
  have hfields : Plain (if q.fields.isEmpty then [.words "*"] else fields) := by
    split
    · exact Plain.nil.words (by decide) (Or.inr opens_nil)
    · exact plain_fieldPieces hfields
  generalize (if q.fields.isEmpty then [.words "*"] else fields) = fields at hfields
  -- the clauses after the table start with words, or are not there
  have hclauses := hcondition.append (horder.append hrange hropens) (hoopens.append hropens)
  have htable := (hclauses.name c.safe_identity
    (hcopens.append (hoopens.append hropens))).after " FROM "
  have hall := (hfields.append htable (opens_words _ _)).after "SELECT "
  simpa using hall

theorem Insert.plain_pieces {vars : Variables} {q : Insert} {ps : List Piece}
    (h : q.pieces vars = .ok ps) : Plain ps := by
  unfold pieces at h
  split at h
  · cases h
    exact ((Plain.nil.words (by decide) (Or.inr opens_nil)).name q.collection.safe_identity
      (opens_words _ _)).after "INSERT INTO "
  · obtain ⟨fields, hfields, h⟩ := bind_eq_ok_iff.mp h
    obtain ⟨values, hvalues, h⟩ := bind_eq_ok_iff.mp h
    cases h
    have hvalues := Plain.commas (forall_of_piecesOfAll hvalues fun _ _ => plain_operand)
    have hrow := (hvalues.append plain_close (opens_words _ _)).after ") VALUES ("
    have hfields := ((plain_fieldPieces hfields).append hrow (opens_words _ _)).after " ("
    have hall := (hfields.name q.collection.safe_identity (opens_words _ _)).after "INSERT INTO "
    simpa using hall

theorem assignmentPieces_ok {vars : Variables} {entry : String × Operand} {ps : List Piece}
    (h : assignmentPieces vars entry = .ok ps) :
    ∃ v, ps = [.name entry.1, .words " = ", .parameter v] ∧ misuse? entry.1 = none ∧
      entry.2.resolve vars = .ok v := by
  obtain ⟨name, hname, h⟩ := bind_eq_ok_iff.mp h
  obtain ⟨value, hvalue, h⟩ := bind_eq_ok_iff.mp h
  obtain ⟨rfl, hvalid⟩ := checkedName_ok hname
  obtain ⟨v, hv, rfl⟩ := Operand.piece_ok hvalue
  cases h
  exact ⟨v, rfl, hvalid, hv⟩

/-- What an update is made of. -/
theorem Update.pieces_eq_ok_iff {vars : Variables} {q : Update} {ps : List Piece} :
    q.pieces vars = .ok ps ↔ q.values.isEmpty = false ∧ ∃ assignments condition,
      piecesOfAll (assignmentPieces vars) q.values = .ok assignments ∧
        Predicate.wherePieces vars q.predicate = .ok condition ∧
          ps = [Piece.words "UPDATE ", .name q.collection.identity, .words " SET "] ++
            Piece.commas assignments ++ condition := by
  unfold pieces
  cases hempty : q.values.isEmpty with
  | true => simp
  | false =>
    constructor
    · intro h
      obtain ⟨assignments, hassignments, h⟩ := bind_eq_ok_iff.mp h
      obtain ⟨condition, hcondition, h⟩ := bind_eq_ok_iff.mp h
      cases h
      exact ⟨rfl, assignments, condition, hassignments, hcondition, rfl⟩
    · rintro ⟨-, assignments, condition, hassignments, hcondition, rfl⟩
      exact bind_eq_ok_iff.mpr ⟨assignments, hassignments,
        bind_eq_ok_iff.mpr ⟨condition, hcondition, rfl⟩⟩

theorem Update.plain_pieces {vars : Variables} {q : Update} {ps : List Piece}
    (h : q.pieces vars = .ok ps) : Plain ps := by
  obtain ⟨-, assignments, condition, hassignments, hcondition, rfl⟩ := pieces_eq_ok_iff.mp h
  obtain ⟨hcondition, hopens⟩ := Predicate.plain_wherePieces hcondition
  have hassignments : ∀ g ∈ assignments, Plain g := by
    refine forall_of_piecesOfAll hassignments fun entry ps hps => ?_
    obtain ⟨v, rfl, hvalid, -⟩ := assignmentPieces_ok hps
    exact ((Plain.nil.parameter v opens_nil).after " = ").name (safe_of_misuse?_eq_none hvalid)
      (opens_words _ _)
  have hset := ((Plain.commas hassignments).append hcondition hopens).after " SET "
  have hall := (hset.name q.collection.safe_identity (opens_words _ _)).after "UPDATE "
  simpa using hall

theorem Delete.plain_pieces {vars : Variables} {q : Delete} {ps : List Piece}
    (h : q.pieces vars = .ok ps) : Plain ps := by
  obtain ⟨condition, hcondition, h⟩ := bind_eq_ok_iff.mp h
  cases h
  obtain ⟨hcondition, hopens⟩ := Predicate.plain_wherePieces hcondition
  exact (hcondition.name q.collection.safe_identity hopens).after "DELETE FROM "

end SchemaMigration
