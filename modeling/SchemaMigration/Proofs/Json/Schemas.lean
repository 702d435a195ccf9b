import SchemaMigration.Proofs.Description.Expansion
import SchemaMigration.Proofs.Json.Definitions
import SchemaMigration.Schema

/-!
# Schemas are read back

A schema file takes seven levels at most, so all of it is read. What the file of a schema without
doubles reads as is the schema itself, but for one thing: the writer leaves a default out only where
there is none and writes the default null as `null`, which the reader takes for no default.

About the serialized form of `LogicalSchema`.

* `FieldDefinition.ofJson_toJson`: the members of a field's kind are read back from between its own.
* `LogicalSchema.decode_render`: what the file of a schema reads as.
* **`LogicalSchema.decode_render_iff`**: the file reads as the schema iff no default is null.
-/

namespace SchemaMigration

/-! ## Kinds of fields -/

namespace FieldKind

/-- The default of a column; a relation has none. -/
def default? : FieldKind → Option Value
  | .column _ _ default _ => default
  | .relation _ => none

/-- The kind without the default null. -/
def settled : FieldKind → FieldKind
  | .column type size default auto => .column type size (default.filter fun v => !v.isNull) auto
  | .relation target => .relation target

/-- The word for a kind. -/
def tag : FieldKind → String
  | .column .. => "column"
  | .relation _ => "relation"

/-- The members of a kind after its tag. -/
def parts : FieldKind → List (String × Json)
  | .column type size default auto =>
    [("type", .text type.name)] ++ Column.attributeMembers size default ++
      [("autoIncrement", .bool auto)]
  | .relation target => [("target", target.toJson)]

theorem members_eq (k : FieldKind) : k.members = ("kind", .text k.tag) :: k.parts := by
  cases k <;> rfl

/-- The keys of the parts of a kind. -/
def keys : List String := ["type", "size", "defaultValue", "autoIncrement", "target"]

theorem sublist_parts (k : FieldKind) : (k.parts.map Prod.fst).Sublist keys := by
  cases k with
  | column type size default auto =>
    rw [parts, List.map_append, List.map_append]
    exact (((List.Sublist.refl ["type"]).append Column.keys_attributeMembers).append
      (List.Sublist.refl ["autoIncrement"])).trans (by decide)
  | relation target => exact List.singleton_sublist.mpr (by simp [keys])

theorem mem_keys_of_mem_members {k : FieldKind} {m : String × Json} (hm : m ∈ k.members) :
    m.1 ∈ "kind" :: keys := by
  rw [members_eq] at hm
  rcases List.mem_cons.mp hm with rfl | hm
  · exact List.mem_cons_self
  · exact List.mem_cons_of_mem _ (k.sublist_parts.subset (List.mem_map_of_mem hm))

/-- **The parts of a kind are read back without the default null.** -/
theorem ofTagged_parts {k : FieldKind} (h : ∀ v ∈ k.default?, v.isFloat = false) :
    ofTagged k.tag (.object k.parts) = .ok k.settled := by
  cases k with
  | column type size default auto =>
    have hrecord : Record.Follows ["type", "size", "defaultValue", "autoIncrement"]
        (FieldKind.column type size default auto).parts := by
      refine ⟨?_, by decide⟩
      rw [parts, List.map_append, List.map_append]
      exact ((List.Sublist.refl ["type"]).append Column.keys_attributeMembers).append
        (List.Sublist.refl ["autoIncrement"])
    simp only [ofTagged, tag, reduceIte]
    refine (hrecord.read_eq _).trans ?_
    refine Located.seq_ok (Located.seq_ok (Located.seq_ok (Located.map_ok
      (hrecord.field_ok rfl (Json.readName_text .held type.lookup_name)))
      (Column.result_size hrecord ?_)) (Column.result_default hrecord ?_ h))
      (hrecord.field_ok ?_ (Json.readBool_bool auto))
    · simp [parts, List.lookup_cons, List.lookup_append, Column.lookup_size]
    · simp [parts, List.lookup_cons, List.lookup_append, Column.lookup_defaultValue]
    · simp [parts, List.lookup_cons, List.lookup_append, Column.lookup_attributeMembers]
  | relation target =>
    simp only [ofTagged, tag, String.reduceEq, reduceIte]
    exact Record.read_one target.ofJson_toJson

theorem plain_members {k : FieldKind} (h : ∀ v ∈ k.default?, v.isFloat = false) :
    ∀ m ∈ k.members, m.2.Plain 1 := by
  rw [members_eq]
  refine List.forall_mem_cons.mpr ⟨Json.plain_text 1 _, ?_⟩
  cases k with
  | column type size default auto =>
    refine List.forall_mem_append.mpr ⟨List.forall_mem_append.mpr ⟨?_, ?_⟩, ?_⟩
    · exact List.forall_mem_singleton.mpr (Json.plain_text 1 _)
    · exact Column.plain_attributeMembers h
    · exact List.forall_mem_singleton.mpr (Json.plain_bool 1 _)
  | relation target => exact List.forall_mem_singleton.mpr target.plain_toJson

theorem settled_eq_self_iff {k : FieldKind} : k.settled = k ↔ k.default? ≠ some .null := by
  cases k with
  | column type size default auto =>
    rcases default with - | v
    · simp [settled, default?]
    · cases v <;> simp [settled, default?, Value.isNull]
  | relation target => simp [settled, default?]

end FieldKind

/-! ## Fields -/

namespace FieldDefinition

/-- The field without the default null. -/
def settled (f : FieldDefinition) : FieldDefinition :=
  { f with kind := f.kind.settled }

/-- The members that a field writes: those of its kind stand between its own. -/
def members (f : FieldDefinition) : List (String × Json) :=
  [("handle", .text f.handle)] ++ f.kind.members ++ [("localized", .bool f.localized)]

theorem follows_members (f : FieldDefinition) :
    Record.Follows ("handle" :: "kind" :: FieldKind.keys ++ ["localized"]) f.members := by
  refine ⟨?_, by decide⟩
  rw [members, List.map_append, List.map_append, FieldKind.members_eq, List.map_cons]
  exact ((List.Sublist.refl ["handle"]).append (f.kind.sublist_parts.cons_cons "kind")).append
    (List.Sublist.refl ["localized"])

/-- No key of a kind is one of the field's own. -/
theorem own_of_mem_members {k : FieldKind} {m : String × Json} (hm : m ∈ k.members) :
    m.1 ≠ "handle" ∧ m.1 ≠ "localized" := by
  have hother : ∀ key ∈ "kind" :: FieldKind.keys, key ≠ "handle" ∧ key ≠ "localized" := by decide
  exact hother m.1 (FieldKind.mem_keys_of_mem_members hm)

theorem kindMembers_members (f : FieldDefinition) : kindMembers f.members = f.kind.members := by
  have hkept : f.kind.members.filter (fun m => m.1 != "handle" && m.1 != "localized") =
      f.kind.members :=
    List.filter_eq_self.mpr fun m hm => by simpa using own_of_mem_members hm
  rw [kindMembers, members, List.filter_append, List.filter_append, hkept]
  simp

/-- The members of the kind are passed over where the field's own are read. -/
theorem close_members (f : FieldDefinition) :
    Record.close ⟨false, f.members⟩ (f.kind.members.map Prod.fst)
      (Prod.mk <$> Record.required ⟨false, f.members⟩ "handle" Json.readText
        <*> Record.defaulted ⟨false, f.members⟩ "localized" false Json.readBool) =
      .ok (f.handle, f.localized) := by
  have hpassed : ∀ m ∈ f.members,
      m.1 ∈ f.kind.members.map Prod.fst ∨ Record.isPassed m.2 = true := by
    intro m hm
    rcases List.mem_append.mp hm with hm | hm
    · rcases List.mem_append.mp hm with hm | hm
      · rw [List.mem_singleton.mp hm]
        exact Or.inr rfl
      · exact Or.inl (List.mem_map_of_mem hm)
    · rw [List.mem_singleton.mp hm]
      exact Or.inr rfl
  have hkind : f.kind.members.lookup "localized" = none := by
    rw [List.lookup_eq_none_iff]
    intro m hm
    simpa using (own_of_mem_members hm).2.symm
  have hlocalized : f.members.lookup "localized" = some (.bool f.localized) := by
    simp [members, List.lookup_cons, List.lookup_append, hkind]
  rw [Record.close_eq_result hpassed]
  exact Located.seq_ok
    (Located.map_ok (f.follows_members.field_ok rfl (Json.readText_text f.handle)))
    (f.follows_members.field_ok hlocalized (Json.readBool_bool f.localized))

/-- **A field is read back without the default null.** -/
theorem ofJson_toJson {f : FieldDefinition} (h : ∀ v ∈ f.kind.default?, v.isFloat = false) :
    ofJson f.toJson = .ok f.settled := by
  have hdata : Json.isData (.object f.kind.members) = true :=
    (Json.Plain.object (FieldKind.plain_members h)).isData
  have htag : "kind" ∉ f.kind.parts.map Prod.fst := fun hmem =>
    absurd (f.kind.sublist_parts.subset hmem) (by decide)
  have hsplit : Record.splitTag "kind" (Json.readWordOrPosition FieldKind.tags)
      (.object f.kind.members) = .ok (f.kind.tag, .object f.kind.parts) := by
    rw [FieldKind.members_eq]
    exact Record.splitTag_cons (Json.readWordOrPosition_text _ _) htag
  show ofJson (.object f.members) = _
  simp only [ofJson, kindMembers_members, close_members, Json.requireData, hdata, if_true, hsplit]
  show (FieldKind.ofTagged f.kind.tag (.object f.kind.parts) >>= fun kind =>
    (.ok ⟨f.handle, kind, f.localized⟩ : Read FieldDefinition)) = _
  rw [FieldKind.ofTagged_parts h]
  rfl

theorem plain_toJson {f : FieldDefinition} (h : ∀ v ∈ f.kind.default?, v.isFloat = false) :
    f.toJson.Plain 2 := by
  refine Json.Plain.object (List.forall_mem_append.mpr ⟨List.forall_mem_append.mpr ⟨?_, ?_⟩, ?_⟩)
  · exact List.forall_mem_singleton.mpr (Json.plain_text 1 _)
  · exact FieldKind.plain_members h
  · exact List.forall_mem_singleton.mpr (Json.plain_bool 1 _)

theorem settled_eq_self_iff {f : FieldDefinition} :
    f.settled = f ↔ f.kind.default? ≠ some .null := by
  rw [← FieldKind.settled_eq_self_iff]
  cases f
  simp [settled]

end FieldDefinition

/-! ## Schemas -/

namespace CollectionSchema

/-- No default of a field is a double. -/
def FloatFree (s : CollectionSchema) : Prop :=
  ∀ f ∈ s.fields, ∀ v ∈ f.kind.default?, v.isFloat = false

/-- The declaration without the default null. -/
def settled (s : CollectionSchema) : CollectionSchema :=
  { s with fields := s.fields.map FieldDefinition.settled }

theorem ofJson_toJson {s : CollectionSchema} (h : s.FloatFree) :
    ofJson s.toJson = .ok s.settled := by
  have hfields : Json.readList FieldDefinition.ofJson
      (.array (s.fields.map FieldDefinition.toJson)) =
        .ok (s.fields.map FieldDefinition.settled) :=
    Json.readList_map fun f hf => FieldDefinition.ofJson_toJson (h f hf)
  have hindexes : Json.readList (Index.ofJson .direct)
      (.array (s.indexes.map Index.toJson)) = .ok s.indexes :=
    Json.readList_written fun i _ => i.ofJson_toJson .direct
  exact Record.read_three (by decide) s.collection.ofJson_toJson hfields hindexes

theorem plain_toJson {s : CollectionSchema} (h : s.FloatFree) : s.toJson.Plain 5 := by
  have hfields : Json.Plain 3 (.array (s.fields.map FieldDefinition.toJson)) :=
    Json.Plain.map fun f hf => FieldDefinition.plain_toJson (h f hf)
  have hindexes : Json.Plain 4 (.array (s.indexes.map Index.toJson)) :=
    Json.Plain.map fun i _ => i.plain_toJson
  exact Json.Plain.object (List.forall_mem_cons.mpr ⟨s.collection.plain_toJson.mono (by decide),
    List.forall_mem_cons.mpr ⟨hfields.mono (by decide), List.forall_mem_singleton.mpr hindexes⟩⟩)

theorem settled_eq_self_iff {s : CollectionSchema} :
    s.settled = s ↔ ∀ f ∈ s.fields, f.kind.default? ≠ some .null := by
  have hfields : s.settled = s ↔ s.fields.map FieldDefinition.settled = s.fields.map id := by
    rw [List.map_id]
    cases s
    simp [settled]
  rw [hfields, List.map_inj_left]
  simp only [id, FieldDefinition.settled_eq_self_iff]

end CollectionSchema

namespace LogicalSchema

/-- No default of the schema is a double. -/
def FloatFree (s : LogicalSchema) : Prop :=
  ∀ c ∈ s.collections, c.FloatFree

/-- The schema without the default null. -/
def settled (s : LogicalSchema) : LogicalSchema :=
  { s with collections := s.collections.map CollectionSchema.settled }

/-- **The file of a schema without doubles reads as the schema without the default null.** -/
theorem decode_render {s : LogicalSchema} (h : s.FloatFree) :
    decode s.toJson.render = .ok s.settled := by
  have hcollections : Json.readList CollectionSchema.ofJson
      (.array (s.collections.map CollectionSchema.toJson)) =
        .ok (s.collections.map CollectionSchema.settled) :=
    Json.readList_map fun c hc => CollectionSchema.ofJson_toJson (h c hc)
  have hlocales : Json.readList Json.readText (.array (s.locales.map .text)) = .ok s.locales :=
    Json.readList_written fun code _ => Json.readText_text code
  have hread : ofJson s.toJson = .ok s.settled :=
    Record.read_two (by decide) hcollections hlocales
  have hplainCollections : Json.Plain 6 (.array (s.collections.map CollectionSchema.toJson)) :=
    Json.Plain.map fun c hc => CollectionSchema.plain_toJson (h c hc)
  have hplainLocales : Json.Plain 1 (.array (s.locales.map .text)) :=
    Json.Plain.map fun code _ => Json.plain_text 0 code
  have hplain : s.toJson.Plain 7 :=
    Json.Plain.object (List.forall_mem_cons.mpr ⟨hplainCollections,
      List.forall_mem_singleton.mpr (hplainLocales.mono (by decide))⟩)
  have hdecodes : DecodesTo ofJson s.toJson s.settled := .of_plain hplain (by decide) hread
  rw [decode, hdecodes, if_pos (hplain.height_le.trans (by decide))]

theorem settled_eq_self_iff {s : LogicalSchema} : s.settled = s ↔
    ∀ c ∈ s.collections, ∀ f ∈ c.fields, f.kind.default? ≠ some .null := by
  have hcollections : s.settled = s ↔
      s.collections.map CollectionSchema.settled = s.collections.map id := by
    rw [List.map_id]
    cases s
    simp [settled]
  rw [hcollections, List.map_inj_left]
  simp only [id, CollectionSchema.settled_eq_self_iff]

/-- **The file of a schema without doubles reads as the schema iff no field has the default
null.** -/
theorem decode_render_iff {s : LogicalSchema} (h : s.FloatFree) :
    decode s.toJson.render = .ok s ↔
      ∀ c ∈ s.collections, ∀ f ∈ c.fields, f.kind.default? ≠ some .null := by
  rw [decode_render h, Except.ok.injEq, settled_eq_self_iff]

end LogicalSchema

namespace Posts

/-- Posts with a cover and a relation, titled in two languages. -/
def illustrated : LogicalSchema :=
  ⟨[⟨collection, [⟨"id", .column .int64 none none true, false⟩,
      ⟨"title", .column .text (some 80) (some (.text "\"new\"")) false, true⟩,
      ⟨"cover", .column .blob none (some (.blob [0, 255])) false, false⟩,
      ⟨"reply", .relation collection, false⟩],
    [⟨primaryName, .primary, [⟨"id", .descending⟩]⟩]⟩], ["en", "fr"]⟩

/-- Posts whose title has this default. -/
def defaulting (default : Option Value) : LogicalSchema :=
  ⟨[⟨collection, [⟨"title", .column .text none default false, false⟩], []⟩], []⟩

end Posts

/-- A schema with fields of both kinds that its file reads as. -/
theorem LogicalSchema.decode_render_of_posts :
    decode Posts.illustrated.toJson.render = .ok Posts.illustrated := by
  have hfloat : Posts.illustrated.FloatFree := by
    simp [LogicalSchema.FloatFree, CollectionSchema.FloatFree, Posts.illustrated,
      FieldKind.default?, Value.isFloat]
  refine (LogicalSchema.decode_render_iff hfloat).mpr ?_
  simp [Posts.illustrated, FieldKind.default?]

/-- A schema with the default null, whose file reads as a schema without a default. -/
theorem LogicalSchema.decode_render_null :
    (Posts.defaulting (some .null)).FloatFree ∧
      decode (Posts.defaulting (some .null)).toJson.render = .ok (Posts.defaulting none) ∧
        Posts.defaulting none ≠ Posts.defaulting (some .null) := by
  have hfloat : (Posts.defaulting (some .null)).FloatFree := by
    simp [LogicalSchema.FloatFree, CollectionSchema.FloatFree, Posts.defaulting,
      FieldKind.default?, Value.isFloat]
  exact ⟨hfloat, LogicalSchema.decode_render hfloat, by decide⟩

end SchemaMigration
