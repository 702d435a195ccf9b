import SchemaMigration.Proofs.Json.Definitions
import SchemaMigration.Query.Select

/-!
# Conditions are read back

A condition writes at least one level for every predicate inside another, and the reader follows it
as deep as its levels go. So a condition reads back whenever its levels are not cut off, and is
malformed where they are.

* `Operand.FloatFree`, `Predicate.FloatFree`: no literal is a double.
* `Predicate.isExact_toJson`, `Predicate.ofJsonWithin_toJson`: by induction on the predicate and the
  predicates inside it, one case for each kind.
* **`Predicate.readOption_cut`**: an optional condition cut to some levels.
-/

namespace SchemaMigration

open Json (Plain)

/-! ## Operands -/

namespace Operand

/-- The literal of an operand. -/
def literal? : Operand → Option Value
  | .value v => some v
  | .variable _ => none

/-- The operand is no double. -/
def FloatFree (x : Operand) : Prop :=
  ∀ v ∈ x.literal?, v.isFloat = false

theorem ofJson_toJson : ∀ {x : Operand}, x.FloatFree → ofJson x.toJson = .ok x
  | .value v, h => by
    show (Value.ofJson v.toJson).map Operand.value = _
    rw [Value.ofJson_toJson (h v rfl)]
    rfl
  | .variable name, _ => rfl

theorem plain_toJson : ∀ {x : Operand}, x.FloatFree → x.toJson.Plain 2
  | .value v, h => Plain.object (by simpa using Value.plain_toJson (h v rfl))
  | .variable name, _ => Plain.object (by simp)

end Operand

theorem Comparison.lookup_name (op : Comparison) :
    Comparison.names.lookup op.name = some op := by
  cases op <;> decide

/-! ## Predicates -/

namespace Predicate

/-- No operand is a double. -/
def FloatFree (p : Predicate) : Prop :=
  ∀ x ∈ p.operands, x.FloatFree

/-- No operand of the predicates is a double. -/
def AllFloatFree (ps : List Predicate) : Prop :=
  ∀ x ∈ operandsOfAll ps, x.FloatFree

theorem allFloatFree_cons {p : Predicate} {ps : List Predicate} :
    AllFloatFree (p :: ps) ↔ p.FloatFree ∧ AllFloatFree ps :=
  List.forall_mem_append

mutual

/-- The text of a predicate says all of it. -/
theorem isExact_toJson : ∀ {p : Predicate}, p.FloatFree → p.toJson.isExact = true
  | .compare field op x, h => by
    have hx := (Operand.plain_toJson (h x List.mem_cons_self)).exact
    simp [toJson, Json.isExact, Json.membersExact, hx]
  | .isNull field negated, _ => rfl
  | .inList field xs negated, h => by
    have hxs : Json.allExact (xs.map Operand.toJson) = true :=
      (Plain.map fun x hx => Operand.plain_toJson (h x hx)).exact
    simp [toJson, Json.isExact, Json.membersExact, hxs]
  | .all ps, h => by simp [toJson, Json.isExact, Json.membersExact, allExact_allToJson h]
  | .any ps, h => by simp [toJson, Json.isExact, Json.membersExact, allExact_allToJson h]
  | .not p, h => by
    have hp : p.FloatFree := h
    simp [toJson, Json.isExact, Json.membersExact, isExact_toJson hp]

theorem allExact_allToJson :
    ∀ {ps : List Predicate}, AllFloatFree ps → Json.allExact (allToJson ps) = true
  | [], _ => rfl
  | p :: ps, h => by
    obtain ⟨hp, hps⟩ := allFloatFree_cons.mp h
    rw [allToJson, Json.allExact, isExact_toJson hp, allExact_allToJson hps, Bool.and_self]

end

/-- The reader of predicates opens a tagged record and goes one level down. -/
theorem ofJsonWithin_object {readTag : Json → Read String}
    (htag : ∀ s, readTag (.text s) = .ok s) (depth : Nat) {kind : String}
    {members : List (String × Json)} (hkind : "kind" ∉ members.map Prod.fst) :
    ofJsonWithin readTag (depth + 1) (.object (("kind", .text kind) :: members)) =
      ofTagged (ofJsonWithin (Json.readWordOrPosition kinds) depth) kind (.object members) := by
  rw [ofJsonWithin, Record.splitTag_cons (htag kind) hkind]
  rfl

variable {inner : Json → Read Predicate}

theorem ofTagged_compare (field : String) (op : Comparison) {x : Operand} (h : x.FloatFree) :
    ofTagged inner "compare" (.object [("field", .text field), ("op", .text op.name),
      ("operand", x.toJson)]) = .ok (.compare field op x) := by
  simp only [ofTagged, String.reduceEq, reduceIte]
  exact Record.read_three (by decide) (Json.readText_text field)
    (Json.readName_text .held op.lookup_name) (Operand.ofJson_toJson h)

theorem ofTagged_isNull (field : String) (negated : Bool) :
    ofTagged inner "is_null" (.object [("field", .text field), ("negated", .bool negated)]) =
      .ok (.isNull field negated) := by
  simp only [ofTagged, String.reduceEq, reduceIte]
  exact Record.read_two (by decide) (Json.readText_text field) (Json.readBool_bool negated)

theorem ofTagged_inList (field : String) {xs : List Operand} (h : ∀ x ∈ xs, x.FloatFree)
    (negated : Bool) :
    ofTagged inner "in_list" (.object [("field", .text field),
      ("operands", .array (xs.map Operand.toJson)), ("negated", .bool negated)]) =
        .ok (.inList field xs negated) := by
  have hxs : Json.readList Operand.ofJson (.array (xs.map Operand.toJson)) = .ok xs :=
    Json.readList_written fun x hx => Operand.ofJson_toJson (h x hx)
  simp only [ofTagged, String.reduceEq, reduceIte]
  exact Record.read_three (by decide) (Json.readText_text field) hxs (Json.readBool_bool negated)

theorem ofTagged_all {ps : List Predicate}
    (h : Json.readItems inner (allToJson ps) = .ok ps) :
    ofTagged inner "and" (.object [("predicates", .array (allToJson ps))]) = .ok (.all ps) := by
  simp only [ofTagged, String.reduceEq, reduceIte]
  exact Record.read_one h

theorem ofTagged_any {ps : List Predicate}
    (h : Json.readItems inner (allToJson ps) = .ok ps) :
    ofTagged inner "or" (.object [("predicates", .array (allToJson ps))]) = .ok (.any ps) := by
  simp only [ofTagged, String.reduceEq, reduceIte]
  exact Record.read_one h

theorem ofTagged_not {p : Predicate} (h : inner p.toJson = .ok p) :
    ofTagged inner "not" (.object [("predicate", p.toJson)]) = .ok (.not p) := by
  simp only [ofTagged, String.reduceEq, reduceIte]
  exact Record.read_one h

theorem height_pos (p : Predicate) : 0 < p.toJson.height := by
  cases p <;> exact Nat.succ_pos _

mutual

/-- **A predicate is read back by a reader that goes as deep as its levels.** -/
theorem ofJsonWithin_toJson : ∀ {p : Predicate}, p.FloatFree →
    ∀ {readTag : Json → Read String}, (∀ s, readTag (.text s) = .ok s) →
      ∀ {depth : Nat}, p.toJson.height ≤ depth → ofJsonWithin readTag depth p.toJson = .ok p
  | p, _, _, _, 0, hdepth => absurd p.height_pos (Nat.not_lt.mpr hdepth)
  | .compare field op x, h, readTag, htag, depth + 1, _ => by
    rw [toJson, ofJsonWithin_object htag depth (by simp)]
    exact ofTagged_compare field op (h x List.mem_cons_self)
  | .isNull field negated, _, readTag, htag, depth + 1, _ => by
    rw [toJson, ofJsonWithin_object htag depth (by simp)]
    exact ofTagged_isNull field negated
  | .inList field xs negated, h, readTag, htag, depth + 1, _ => by
    rw [toJson, ofJsonWithin_object htag depth (by simp)]
    exact ofTagged_inList field h negated
  | .all ps, h, readTag, htag, depth + 1, hdepth => by
    have hinner : Json.heightOfItems (allToJson ps) ≤ depth := by
      simp [toJson, Json.height, Json.heightOfMembers] at hdepth
      omega
    rw [toJson, ofJsonWithin_object htag depth (by simp)]
    exact ofTagged_all (readItems_allToJson h hinner)
  | .any ps, h, readTag, htag, depth + 1, hdepth => by
    have hinner : Json.heightOfItems (allToJson ps) ≤ depth := by
      simp [toJson, Json.height, Json.heightOfMembers] at hdepth
      omega
    rw [toJson, ofJsonWithin_object htag depth (by simp)]
    exact ofTagged_any (readItems_allToJson h hinner)
  | .not p, h, readTag, htag, depth + 1, hdepth => by
    have hp : p.FloatFree := h
    have hinner : p.toJson.height ≤ depth := by
      simpa [toJson, Json.height, Json.heightOfMembers] using hdepth
    rw [toJson, ofJsonWithin_object htag depth (by simp)]
    exact ofTagged_not (ofJsonWithin_toJson hp (Json.readWordOrPosition_text kinds) hinner)

theorem readItems_allToJson : ∀ {ps : List Predicate}, AllFloatFree ps →
    ∀ {depth : Nat}, Json.heightOfItems (allToJson ps) ≤ depth →
      Json.readItems (ofJsonWithin (Json.readWordOrPosition kinds) depth) (allToJson ps) = .ok ps
  | [], _, _, _ => rfl
  | p :: ps, h, depth, hdepth => by
    obtain ⟨hp, hps⟩ := allFloatFree_cons.mp h
    rw [allToJson, Json.heightOfItems, Nat.max_le] at hdepth
    rw [allToJson, Json.readItems,
      ofJsonWithin_toJson hp (Json.readWordOrPosition_text kinds) hdepth.1,
      readItems_allToJson hps hdepth.2]
    rfl

end

/-- A predicate cut to some levels reads back iff none of its own is cut off. -/
theorem ofJson_cut {p : Predicate} (h : p.FloatFree) {depth : Nat} (hdepth : depth ≤ Json.deepest) :
    ofJson (p.toJson.cut depth) =
      if p.toJson.height ≤ depth then .ok p else .error .malformed := by
  rw [ofJson, Json.requireData, Json.isData_cut p.toJson (isExact_toJson h) depth]
  by_cases hlevels : p.toJson.height ≤ depth
  · have hread : ofJsonWithin Json.readText (Json.deepest + 1) p.toJson = .ok p :=
      ofJsonWithin_toJson h Json.readText_text (by omega)
    rw [Json.cut_of_height_le p.toJson depth hlevels, hread]
    simp only [hlevels, decide_true, if_true]
    rfl
  · simp only [hlevels, decide_false, Bool.false_eq_true, if_false]
    rfl

/-- **An optional condition cut to some levels** reads back iff none of its own is cut off. -/
theorem readOption_cut {o : Option Predicate} (h : ∀ p ∈ o, p.FloatFree) {depth : Nat}
    (hdepth : depth ≤ Json.deepest) :
    Json.readOption ofJson ((Json.ofOption toJson o).cut depth) =
      if (Json.ofOption toJson o).height ≤ depth then .ok o else .error .malformed := by
  cases o with
  | none =>
    have hheight : (Json.ofOption toJson none).height ≤ depth := Nat.zero_le depth
    rw [if_pos hheight]
    rfl
  | some p =>
    have hnull : p.toJson.cut depth ≠ .null := by
      cases p <;> simp only [toJson, Json.cut] <;> split <;> exact Json.noConfusion
    show Json.readOption ofJson (p.toJson.cut depth) = _
    rw [Json.readOption_of_ne_null hnull, ofJson_cut (h p rfl) hdepth]
    show _ = if p.toJson.height ≤ depth then _ else _
    split <;> rfl

end Predicate

end SchemaMigration
