import SchemaMigration.Proofs.Json.Conditions
import SchemaMigration.Proofs.Statement.Parameters
import SchemaMigration.Proofs.Statement.Quoting
import SchemaMigration.Query

/-!
# Queries are read back

Only the condition of a query can be nested without bound: everything else a query writes takes a
few levels. So a query without doubles reads back if its condition is not too deep, and its text is
refused if it is. What reads back is the query itself, except that columns lose the default null.

* `Query.FloatFree`: no operand of a query and no default of its columns is a double.
* `Predicate.decodesTo_conditional`: the queries with a condition, whose other parts are read
  whatever the condition is.
* **`Query.decodesTo`**: what the text of a query reads as.
* **`Query.height_le_iff`**: only the condition of a query can be nested too deep.
-/

namespace SchemaMigration

/-! ## Selects -/

theorem SortTerm.ofJson_toJson (t : SortTerm) : ofJson t.toJson = .ok t :=
  Record.read_two (by decide) (Json.readText_text t.field)
    (Json.readName_text .direct t.direction.lookup_name)

theorem SortTerm.plain_toJson (t : SortTerm) : t.toJson.Plain 1 :=
  Json.Plain.object (by simp)

namespace Range

theorem readOption_limit (limit : Option UInt64) :
    Json.readOption Json.readWord64
      (Json.ofOption (fun n : UInt64 => .int n.toNat) limit) = .ok limit := by
  cases limit with
  | none => rfl
  | some n =>
    show (Json.readWord64 (.int n.toNat)).map some = _
    rw [Json.readWord64_toNat]
    rfl

theorem ofJson_toJson (r : Range) : ofJson r.toJson = .ok r :=
  Record.read_two (by decide) (Json.readWord64_toNat r.offset) (readOption_limit r.limit)

theorem plain_toJson (r : Range) : r.toJson.Plain 1 := by
  have hword (n : UInt64) : Json.Plain 0 (.int n.toNat) :=
    Json.plain_nat (Nat.le_sub_one_of_lt n.toNat_lt) 0
  refine Json.Plain.object ?_
  cases hlimit : r.limit <;> simp [Json.ofOption, hword]

end Range

theorem CollectionRef.readOption_ofOption (c : Option CollectionRef) :
    Json.readOption CollectionRef.ofJson (Json.ofOption CollectionRef.toJson c) = .ok c := by
  cases c with
  | none => rfl
  | some c =>
    show (CollectionRef.ofJson c.toJson).map some = _
    rw [CollectionRef.ofJson_toJson]
    rfl

theorem CollectionRef.plain_ofOption (c : Option CollectionRef) :
    (Json.ofOption CollectionRef.toJson c).Plain 1 := by
  cases c with
  | none => exact Json.plain_null 1
  | some c => exact c.plain_toJson

/-- The text of an optional condition says all of it. -/
theorem Predicate.isExact_ofOption {o : Option Predicate} (h : ∀ p ∈ o, p.FloatFree) :
    (Json.ofOption Predicate.toJson o).isExact = true := by
  cases o with
  | none => rfl
  | some p => exact Predicate.isExact_toJson (h p rfl)

theorem Predicate.height_ofOption_le_iff {o : Option Predicate} {n : Nat} :
    (Json.ofOption Predicate.toJson o).height ≤ n ↔ ∀ p ∈ o, p.toJson.height ≤ n := by
  cases o with
  | none => simp [Json.ofOption, Json.height]
  | some p => simp [Json.ofOption]

/-- The levels that are left inside the outermost one. -/
def Json.inside : Nat := Json.deepest - 1

/-- **A query with a condition** reads back iff none of its levels is too deep. Its other parts,
before and after the condition, are not deep and are read whatever the condition is. -/
theorem Predicate.decodesTo_conditional {α : Type} {read : Json → Read α}
    {before after : List (String × Json)} {o : Option Predicate} (h : ∀ p ∈ o, p.FloatFree)
    (hbefore : ∀ m ∈ before, m.2.Plain Json.inside)
    (hafter : ∀ m ∈ after, m.2.Plain Json.inside) {f : Option Predicate → α}
    (hread : ∀ condition, read (.object (before ++ ("predicate", condition) :: after)) =
      (Json.readOption Predicate.ofJson condition).map f)
    {j : Json} (hj : j = .object (before ++ ("predicate", Json.ofOption toJson o) :: after)) :
    DecodesTo read j (f o) := by
  subst hj
  have hinside : Json.inside ≤ Json.deepest := Nat.sub_le Json.deepest 1
  have hcut : Json.cut Json.deepest
      (.object (before ++ ("predicate", Json.ofOption toJson o) :: after)) =
        .object (before ++ ("predicate", (Json.ofOption toJson o).cut Json.inside) :: after) :=
    Json.cut_beside hbefore hafter
  have hheight : Json.height (.object (before ++ ("predicate", Json.ofOption toJson o) :: after)) ≤
      Json.deepest ↔ (Json.ofOption toJson o).height ≤ Json.inside :=
    Json.height_beside_le_iff hbefore hafter
  have hexact : Json.isExact
      (.object (before ++ ("predicate", Json.ofOption toJson o) :: after)) = true :=
    Json.isExact_beside hbefore hafter (isExact_ofOption h)
  rw [DecodesTo, decodeText_render read hexact, hcut, hread, readOption_cut h hinside]
  simp only [hheight]
  split <;> rfl

namespace Select

/-- The other parts of a select are read whatever its condition is. -/
theorem ofJson_object (q : Select) (condition : Json) :
    ofJson (.object [("collection", Json.ofOption CollectionRef.toJson q.collection),
      ("fields", .array (q.fields.map .text)), ("predicate", condition),
      ("sort", .array (q.sort.map SortTerm.toJson)), ("range", q.range.toJson)]) =
        (Json.readOption Predicate.ofJson condition).map fun p => { q with predicate := p } := by
  have hrecord (collection fields predicate sort range : Json) :
      Record.Follows ["collection", "fields", "predicate", "sort", "range"]
        [("collection", collection), ("fields", fields), ("predicate", predicate), ("sort", sort),
          ("range", range)] :=
    ⟨List.Sublist.refl _, by decide⟩
  have hfields : Json.readList Json.readText (.array (q.fields.map .text)) = .ok q.fields :=
    Json.readList_written fun s _ => Json.readText_text s
  have hsort : Json.readList SortTerm.ofJson (.array (q.sort.map SortTerm.toJson)) = .ok q.sort :=
    Json.readList_written fun t _ => t.ofJson_toJson
  exact ((hrecord _ _ _ _ _).read_eq _).trans
    (Located.result_seq_ok (Located.result_seq_ok (Located.result_seq_of_ok
      (Located.seq_ok (Located.map_ok ((hrecord _ _ _ _ _).field_ok rfl
        (CollectionRef.readOption_ofOption q.collection)))
        ((hrecord _ _ _ _ _).field_ok rfl hfields))
      ((hrecord _ _ _ _ _).field_eq rfl _ _))
      ((hrecord _ _ _ _ _).field_ok rfl hsort))
      ((hrecord _ _ _ _ _).field_ok rfl q.range.ofJson_toJson))

/-- What a select has before its condition takes a few levels. -/
theorem plain_before (q : Select) :
    ∀ m ∈ [("collection", Json.ofOption CollectionRef.toJson q.collection),
      ("fields", .array (q.fields.map .text))], m.2.Plain Json.inside := by
  have hcollection : (Json.ofOption CollectionRef.toJson q.collection).Plain Json.inside :=
    (CollectionRef.plain_ofOption q.collection).mono (by decide)
  have hfields : Json.Plain 1 (.array (q.fields.map .text)) :=
    Json.Plain.map fun s _ => Json.plain_text 0 s
  exact List.forall_mem_cons.mpr
    ⟨hcollection, List.forall_mem_singleton.mpr (hfields.mono (by decide))⟩

/-- What a select has after its condition takes a few levels. -/
theorem plain_after (q : Select) :
    ∀ m ∈ [("sort", .array (q.sort.map SortTerm.toJson)), ("range", q.range.toJson)],
      m.2.Plain Json.inside := by
  have hsort : Json.Plain 2 (.array (q.sort.map SortTerm.toJson)) :=
    Json.Plain.map fun t _ => t.plain_toJson
  have hrange : q.range.toJson.Plain Json.inside := q.range.plain_toJson.mono (by decide)
  exact List.forall_mem_cons.mpr
    ⟨hsort.mono (by decide), List.forall_mem_singleton.mpr hrange⟩

/-- A select reads back iff none of its levels is too deep. -/
theorem decodesTo {q : Select} (h : ∀ p ∈ q.predicate, p.FloatFree) :
    DecodesTo ofJson q.toJson q :=
  Predicate.decodesTo_conditional h q.plain_before q.plain_after q.ofJson_object rfl

theorem height_le_iff (q : Select) :
    q.toJson.height ≤ Json.deepest ↔ ∀ p ∈ q.predicate, p.toJson.height ≤ Json.inside :=
  (Json.height_beside_le_iff q.plain_before q.plain_after).trans Predicate.height_ofOption_le_iff

end Select

/-! ## Inserts, updates and deletes -/

namespace Assignments

/-- No assigned operand is a double. -/
def FloatFree (a : Assignments) : Prop :=
  ∀ x ∈ a.map Prod.snd, x.FloatFree

theorem ofJson_toJson {a : Assignments} (h : FloatFree a) : ofJson (toJson a) = .ok a := by
  refine Json.readList_written fun entry hentry => ?_
  have hoperand : Operand.ofJson entry.2.toJson = .ok entry.2 :=
    Operand.ofJson_toJson (h entry.2 (List.mem_map_of_mem hentry))
  simp only [Json.readPair, Json.readText_text, hoperand]
  rfl

theorem plain_toJson {a : Assignments} (h : FloatFree a) : (toJson a).Plain 4 := by
  refine Json.Plain.map fun entry hentry => Json.Plain.array ?_
  exact List.forall_mem_cons.mpr ⟨Json.plain_text 2 _, List.forall_mem_singleton.mpr
    (Operand.plain_toJson (h entry.2 (List.mem_map_of_mem hentry)))⟩

end Assignments

namespace Insert

theorem plain_toJson {q : Insert} (h : Assignments.FloatFree q.values) : q.toJson.Plain 5 :=
  Json.Plain.object (List.forall_mem_cons.mpr ⟨q.collection.plain_toJson.mono (by decide),
    List.forall_mem_singleton.mpr (Assignments.plain_toJson h)⟩)

theorem decodesTo {q : Insert} (h : Assignments.FloatFree q.values) :
    DecodesTo ofJson q.toJson q := by
  have hread : ofJson q.toJson = .ok q :=
    Record.read_two (by decide) q.collection.ofJson_toJson (Assignments.ofJson_toJson h)
  exact .of_plain (plain_toJson h) (by decide) hread

end Insert

namespace Update

/-- The other parts of an update are read whatever its condition is. -/
theorem ofJson_object {q : Update} (h : Assignments.FloatFree q.values) (condition : Json) :
    ofJson (.object ([("collection", q.collection.toJson),
      ("values", Assignments.toJson q.values)] ++ ("predicate", condition) :: [])) =
        (Json.readOption Predicate.ofJson condition).map fun p => { q with predicate := p } := by
  have hrecord (collection values predicate : Json) :
      Record.Follows ["collection", "values", "predicate"]
        [("collection", collection), ("values", values), ("predicate", predicate)] :=
    ⟨List.Sublist.refl _, by decide⟩
  exact ((hrecord _ _ _).read_eq _).trans
    (Located.result_seq_of_ok (Located.seq_ok
      (Located.map_ok ((hrecord _ _ _).field_ok rfl q.collection.ofJson_toJson))
      ((hrecord _ _ _).field_ok rfl (Assignments.ofJson_toJson h)))
      ((hrecord _ _ _).field_eq rfl _ _))

/-- What an update has before its condition takes a few levels. -/
theorem plain_before {q : Update} (h : Assignments.FloatFree q.values) :
    ∀ m ∈ [("collection", q.collection.toJson), ("values", Assignments.toJson q.values)],
      m.2.Plain Json.inside :=
  List.forall_mem_cons.mpr ⟨q.collection.plain_toJson.mono (by decide),
    List.forall_mem_singleton.mpr ((Assignments.plain_toJson h).mono (by decide))⟩

/-- An update reads back iff none of its levels is too deep. -/
theorem decodesTo {q : Update} (hvalues : Assignments.FloatFree q.values)
    (h : ∀ p ∈ q.predicate, p.FloatFree) : DecodesTo ofJson q.toJson q :=
  Predicate.decodesTo_conditional h (plain_before hvalues) (List.forall_mem_nil _)
    (ofJson_object hvalues) rfl

theorem height_le_iff {q : Update} (h : Assignments.FloatFree q.values) :
    q.toJson.height ≤ Json.deepest ↔ ∀ p ∈ q.predicate, p.toJson.height ≤ Json.inside :=
  (Json.height_beside_le_iff (plain_before h) (List.forall_mem_nil _)).trans
    Predicate.height_ofOption_le_iff

end Update

namespace Delete

/-- The collection of a delete is read whatever its condition is. -/
theorem ofJson_object (q : Delete) (condition : Json) :
    ofJson (.object ([("collection", q.collection.toJson)] ++ ("predicate", condition) :: [])) =
      (Json.readOption Predicate.ofJson condition).map fun p => { q with predicate := p } := by
  have hrecord (collection predicate : Json) : Record.Follows ["collection", "predicate"]
      [("collection", collection), ("predicate", predicate)] :=
    ⟨List.Sublist.refl _, by decide⟩
  exact ((hrecord _ _).read_eq _).trans
    (Located.result_seq_of_ok
      (Located.map_ok ((hrecord _ _).field_ok rfl q.collection.ofJson_toJson))
      ((hrecord _ _).field_eq rfl _ _))

/-- What a delete has before its condition takes a few levels. -/
theorem plain_before (q : Delete) :
    ∀ m ∈ [("collection", q.collection.toJson)], m.2.Plain Json.inside :=
  List.forall_mem_singleton.mpr (q.collection.plain_toJson.mono (by decide))

/-- A delete reads back iff none of its levels is too deep. -/
theorem decodesTo {q : Delete} (h : ∀ p ∈ q.predicate, p.FloatFree) :
    DecodesTo ofJson q.toJson q :=
  Predicate.decodesTo_conditional h q.plain_before (List.forall_mem_nil _) q.ofJson_object rfl

theorem height_le_iff (q : Delete) :
    q.toJson.height ≤ Json.deepest ↔ ∀ p ∈ q.predicate, p.toJson.height ≤ Json.inside :=
  (Json.height_beside_le_iff q.plain_before (List.forall_mem_nil _)).trans
    Predicate.height_ofOption_le_iff

end Delete

/-! ## Creations and alterations -/

namespace Column

/-- A double as a default is an effective one. -/
theorem floatFree_of_effectiveDefault {c : Column}
    (h : ∀ v ∈ c.effectiveDefault, v.isFloat = false) : ∀ v ∈ c.default, v.isFloat = false := by
  intro v hv
  by_cases hnull : v.isNull = true
  · cases v <;> first | rfl | cases hnull
  · refine h v ?_
    rw [effectiveDefault, hv]
    simp [hnull]

end Column

namespace CreateCollection

/-- The creation with the effective defaults of its columns. -/
def settled (q : CreateCollection) : CreateCollection :=
  { q with columns := q.columns.map Column.settled }

theorem plain_toJson {q : CreateCollection}
    (h : ∀ c ∈ q.columns, ∀ v ∈ c.default, v.isFloat = false) : q.toJson.Plain 5 := by
  have hcolumns : Json.Plain 3 (.array (q.columns.map Column.toJson)) :=
    Json.Plain.map fun c hc => Column.plain_toJson (h c hc)
  have hindexes : Json.Plain 4 (.array (q.indexes.map Index.toJson)) :=
    Json.Plain.map fun i _ => i.plain_toJson
  exact Json.Plain.object (List.forall_mem_cons.mpr ⟨q.collection.plain_toJson.mono (by decide),
    List.forall_mem_cons.mpr ⟨hcolumns.mono (by decide), List.forall_mem_singleton.mpr hindexes⟩⟩)

theorem decodesTo {q : CreateCollection}
    (h : ∀ c ∈ q.columns, ∀ v ∈ c.default, v.isFloat = false) :
    DecodesTo ofJson q.toJson q.settled := by
  have hcolumns : Json.readList (Column.ofJson .direct)
      (.array (q.columns.map Column.toJson)) = .ok (q.columns.map Column.settled) :=
    Json.readList_map fun c hc => Column.ofJson_toJson .direct (h c hc)
  have hindexes : Json.readList (Index.ofJson .direct)
      (.array (q.indexes.map Index.toJson)) = .ok q.indexes :=
    Json.readList_written fun i _ => i.ofJson_toJson .direct
  have hread : ofJson q.toJson = .ok q.settled :=
    Record.read_three (by decide) q.collection.ofJson_toJson hcolumns hindexes
  exact .of_plain (plain_toJson h) (by decide) hread

end CreateCollection

namespace AlterStep

/-- The step with the effective default of its column. -/
def settled : AlterStep → AlterStep
  | .addColumn column source => .addColumn column.settled source
  | .alterColumn source column => .alterColumn source column.settled
  | step => step

theorem plain_toJson : ∀ {step : AlterStep}, (∀ v ∈ step.defaults, v.isFloat = false) →
    step.toJson.Plain 4
  | .addColumn column source, h => by
    have hcolumn : column.toJson.Plain 2 := Column.plain_toJson
      (Column.floatFree_of_effectiveDefault fun v hv => h v (Option.mem_toList.mpr hv))
    exact Json.Plain.object
      (by simp [Json.plain_textOption, hcolumn.mono (show 2 ≤ 3 by decide)])
  | .alterColumn source column, h => by
    have hcolumn : column.toJson.Plain 2 := Column.plain_toJson
      (Column.floatFree_of_effectiveDefault fun v hv => h v (Option.mem_toList.mpr hv))
    exact Json.Plain.object (by simp [hcolumn.mono (show 2 ≤ 3 by decide)])
  | .dropColumn name, _ => Json.Plain.object (by simp)
  | .addIndex index, _ => Json.Plain.object (by simp [index.plain_toJson])
  | .dropIndex name, _ => Json.Plain.object (by simp)
  | .rename target, _ =>
    Json.Plain.object (by simp [target.plain_toJson.mono (show 1 ≤ 3 by decide)])

/-- The reader of steps opens a tagged record. -/
theorem ofJson_object {n : Nat} {op : String} {members : List (String × Json)}
    (hplain : Json.Plain n (.object (("op", .text op) :: members)))
    (hop : "op" ∉ members.map Prod.fst) :
    ofJson (.object (("op", .text op) :: members)) = ofTagged op (.object members) := by
  rw [ofJson, Json.requireData, hplain.isData, Record.splitTag_cons (Json.readText_text op) hop]
  rfl

/-- **A step is read back with the effective default of its column.** -/
theorem ofJson_toJson : ∀ {step : AlterStep}, (∀ v ∈ step.defaults, v.isFloat = false) →
    ofJson step.toJson = .ok step.settled
  | .addColumn column source, h => by
    have hcolumn : Column.ofJson .held column.toJson = .ok column.settled := Column.ofJson_toJson
      .held (Column.floatFree_of_effectiveDefault fun v hv => h v (Option.mem_toList.mpr hv))
    rw [toJson, ofJson_object (plain_toJson h) (by simp)]
    simp only [ofTagged, String.reduceEq, reduceIte]
    exact Record.read_two (by decide) hcolumn (Json.readOption_text source)
  | .alterColumn source column, h => by
    have hcolumn : Column.ofJson .held column.toJson = .ok column.settled := Column.ofJson_toJson
      .held (Column.floatFree_of_effectiveDefault fun v hv => h v (Option.mem_toList.mpr hv))
    rw [toJson, ofJson_object (plain_toJson h) (by simp)]
    simp only [ofTagged, String.reduceEq, reduceIte]
    exact Record.read_two (by decide) (Json.readText_text source) hcolumn
  | .dropColumn name, h => by
    rw [toJson, ofJson_object (plain_toJson h) (by simp)]
    simp only [ofTagged, String.reduceEq, reduceIte]
    exact Record.read_one (Json.readText_text name)
  | .addIndex index, h => by
    rw [toJson, ofJson_object (plain_toJson h) (by simp)]
    simp only [ofTagged, String.reduceEq, reduceIte]
    exact Record.read_one (index.ofJson_toJson .held)
  | .dropIndex name, h => by
    rw [toJson, ofJson_object (plain_toJson h) (by simp)]
    simp only [ofTagged, String.reduceEq, reduceIte]
    exact Record.read_one (Json.readText_text name)
  | .rename target, h => by
    rw [toJson, ofJson_object (plain_toJson h) (by simp)]
    simp only [ofTagged, String.reduceEq, reduceIte]
    exact Record.read_one target.ofJson_toJson

end AlterStep

namespace AlterCollection

/-- The alteration with the effective defaults of its columns. -/
def settled (q : AlterCollection) : AlterCollection :=
  { q with steps := q.steps.map AlterStep.settled }

theorem plain_toJson {q : AlterCollection}
    (h : ∀ s ∈ q.steps, ∀ v ∈ s.defaults, v.isFloat = false) : q.toJson.Plain 6 := by
  have hsteps : Json.Plain 5 (.array (q.steps.map AlterStep.toJson)) :=
    Json.Plain.map fun s hs => AlterStep.plain_toJson (h s hs)
  exact Json.Plain.object (List.forall_mem_cons.mpr ⟨q.collection.plain_toJson.mono (by decide),
    List.forall_mem_singleton.mpr hsteps⟩)

theorem decodesTo {q : AlterCollection}
    (h : ∀ s ∈ q.steps, ∀ v ∈ s.defaults, v.isFloat = false) :
    DecodesTo ofJson q.toJson q.settled := by
  have hsteps : Json.readList AlterStep.ofJson (.array (q.steps.map AlterStep.toJson)) =
      .ok (q.steps.map AlterStep.settled) :=
    Json.readList_map fun s hs => AlterStep.ofJson_toJson (h s hs)
  have hread : ofJson q.toJson = .ok q.settled :=
    Record.read_two (by decide) q.collection.ofJson_toJson hsteps
  exact .of_plain (plain_toJson h) (by decide) hread

end AlterCollection

/-! ## All queries -/

namespace Query

theorem plain_targetToJson (c : CollectionRef) : (targetToJson c).Plain 2 :=
  Json.Plain.object (List.forall_mem_singleton.mpr c.plain_toJson)

theorem decodesTo_target (c : CollectionRef) :
    DecodesTo targetOfJson (targetToJson c) c := by
  have hrecord : Record.Follows ["collection"] [("collection", c.toJson)] :=
    ⟨List.Sublist.refl _, by decide⟩
  have hread : targetOfJson (targetToJson c) = .ok c :=
    (hrecord.read_eq _).trans (hrecord.field_ok rfl c.ofJson_toJson)
  exact .of_plain (plain_targetToJson c) (by decide) hread

/-- No operand of the query and no default of its columns is a double. -/
structure FloatFree (q : Query) : Prop where
  /-- No operand is. -/
  operands : ∀ x ∈ q.operands, x.FloatFree
  /-- No default is. -/
  defaults : ∀ v ∈ q.defaults, v.isFloat = false

/-- The query with the effective defaults of its columns. -/
def settled : Query → Query
  | .createCollection q => .createCollection q.settled
  | .alterCollection q => .alterCollection q.settled
  | q => q

namespace FloatFree

/-- No default of a created column is a double. -/
theorem created {q : CreateCollection} (h : (createCollection q).FloatFree) :
    ∀ c ∈ q.columns, ∀ v ∈ c.default, v.isFloat = false := fun c hc =>
  Column.floatFree_of_effectiveDefault fun v hv =>
    h.defaults v (List.mem_filterMap.mpr ⟨c, hc, hv⟩)

/-- No default of a step of an alteration is a double. -/
theorem altered {q : AlterCollection} (h : (alterCollection q).FloatFree) :
    ∀ s ∈ q.steps, ∀ v ∈ s.defaults, v.isFloat = false := fun s hs v hv =>
  h.defaults v (List.mem_flatMap.mpr ⟨s, hs, hv⟩)

/-- No value that an update assigns is a double. -/
theorem assigned {q : Update} (h : (update q).FloatFree) : Assignments.FloatFree q.values :=
  (List.forall_mem_append.mp h.operands).1

end FloatFree

/-- **The text of a query reads as the query with its effective defaults, unless it is nested too
deep.** -/
theorem decodesTo {q : Query} (h : q.FloatFree) : DecodesTo (ofJson q.kind) q.toJson q.settled := by
  have hcondition : ∀ {o : Option Predicate},
      (∀ x ∈ o.toList.flatMap Predicate.operands, x.FloatFree) → ∀ p ∈ o, p.FloatFree :=
    fun h p hp x hx => h x (List.mem_flatMap.mpr ⟨p, Option.mem_toList.mpr hp, hx⟩)
  cases q with
  | select q => exact (Select.decodesTo (hcondition h.operands)).map Query.select
  | insert q => exact (Insert.decodesTo h.operands).map Query.insert
  | update q =>
    have hpredicate := (List.forall_mem_append.mp h.operands).2
    exact (Update.decodesTo h.assigned (hcondition hpredicate)).map Query.update
  | delete q => exact (Delete.decodesTo (hcondition h.operands)).map Query.delete
  | createCollection q => exact (CreateCollection.decodesTo h.created).map Query.createCollection
  | alterCollection q => exact (AlterCollection.decodesTo h.altered).map Query.alterCollection
  | dropCollection c => exact (decodesTo_target c).map Query.dropCollection
  | collectionExists c => exact (decodesTo_target c).map Query.collectionExists
  | describeCollection c => exact (decodesTo_target c).map Query.describeCollection
  | showCollections => exact .of_plain (Json.plain_null 0) (Nat.zero_le _) rfl

/-- **Only the condition of a query can be nested too deep.** -/
theorem height_le_iff {q : Query} (h : q.FloatFree) :
    q.toJson.height ≤ Json.deepest ↔ ∀ p ∈ q.condition?, p.toJson.height ≤ Json.inside := by
  -- a query without a condition is never nested too deep
  have hplain : ∀ {n : Nat} {j : Json}, j.Plain n → n ≤ Json.deepest →
      (j.height ≤ Json.deepest ↔ ∀ p ∈ (none : Option Predicate), p.toJson.height ≤ Json.inside) :=
    fun h hn => iff_of_true (h.height_le.trans hn) (fun _ hp => nomatch hp)
  cases q with
  | select q => exact q.height_le_iff
  | insert q => exact hplain (Insert.plain_toJson h.operands) (by decide)
  | update q => exact Update.height_le_iff h.assigned
  | delete q => exact q.height_le_iff
  | createCollection q => exact hplain (CreateCollection.plain_toJson h.created) (by decide)
  | alterCollection q => exact hplain (AlterCollection.plain_toJson h.altered) (by decide)
  | dropCollection c => exact hplain (plain_targetToJson c) (by decide)
  | collectionExists c => exact hplain (plain_targetToJson c) (by decide)
  | describeCollection c => exact hplain (plain_targetToJson c) (by decide)
  | showCollections => exact hplain (Json.plain_null 0) (Nat.zero_le _)

end Query

end SchemaMigration
