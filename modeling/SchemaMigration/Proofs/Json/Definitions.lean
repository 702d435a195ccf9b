import SchemaMigration.Collection.Json
import SchemaMigration.Column
import SchemaMigration.Index
import SchemaMigration.Proofs.Identity
import SchemaMigration.Proofs.Json.Records
import SchemaMigration.Proofs.Json.Written

/-!
# Values, collections, columns and indexes are read back

What the parts of queries and of schemas write is what they read, as long as no value is a double.
There is one exception: a column whose default is the value null writes `null`, which reads as no
default at all. Nothing that depends on the `effectiveDefault` of a column can tell the two apart.

* `Value.ofJson_toJson`, `CollectionRef.ofJson_toJson`, `Index.ofJson_toJson`: what is written reads
  back.
* `Column.ofJson_toJson`: a column reads back with its effective default.
* `Value.plain_toJson` and the like: how many levels the parts take.
-/

namespace SchemaMigration

/-! ## Values -/

namespace Value

theorem readByte_toNat (b : UInt8) : readByte (.int b.toNat) = .ok b := by
  have hbound : b.toNat ≤ 255 := Nat.le_of_lt_succ b.toNat_lt
  rw [readByte, Json.readNat_ofNat hbound]
  exact congrArg Except.ok UInt8.ofNat_toNat

/-- A value other than a double is read back. -/
theorem ofJson_toJson {v : Value} (h : v.isFloat = false) : ofJson v.toJson = .ok v := by
  cases v with
  | null => rfl
  | bool b => rfl
  | int n => rw [toJson, ofJson, int64?_toInt]
  | float x => cases h
  | text s => rfl
  | blob bytes =>
    have hbytes : Json.readItems readByte (bytes.map fun b => Json.int b.toNat) = .ok bytes :=
      Json.readList_written fun b _ => readByte_toNat b
    rw [toJson, ofJson, hbytes]
    rfl

theorem plain_toJson {v : Value} (h : v.isFloat = false) : v.toJson.Plain 1 := by
  cases v with
  | null => exact Json.plain_null 1
  | bool b => exact Json.plain_bool 1 b
  | int n =>
    refine Json.plain_int ?_ 1
    have hlow : -(twoTo 63 : Int) ≤ n.toInt := n.le_toInt
    have hhigh : n.toInt < (twoTo 63 : Int) := n.toInt_lt
    have hword : (twoTo 63 : Int) ≤ Json.greatestWord := by decide
    simp only [Json.fitsWord, Bool.and_eq_true, decide_eq_true_eq]
    omega
  | float x => cases h
  | text s => exact Json.plain_text 1 s
  | blob bytes =>
    refine Json.Plain.map fun b _ => Json.plain_nat ?_ 0
    have hbound : b.toNat < 256 := b.toNat_lt
    have hword : 256 ≤ Json.greatestWord := by decide
    omega

theorem toJson_eq_null_iff {v : Value} : v.toJson = .null ↔ v = .null := by
  cases v <;> simp [toJson]

end Value

/-! ## Collections -/

namespace CollectionRef

/-- The parts of a collection have passed the checks that they meet again. -/
theorem ofJson_toJson (c : CollectionRef) : ofJson c.toJson = .ok c := by
  have hparts : partsOfJson c.toJson = .ok (c.scope, c.name) :=
    Record.read_two (by decide) (Json.readOption_text c.scope) (Json.readText_text c.name)
  have hmake : make c.scope c.name = .ok c := make_eq_ok_iff.mpr ⟨rfl, rfl⟩
  rw [ofJson, hparts]
  exact mapError_eq_ok_iff.mpr hmake

theorem plain_toJson (c : CollectionRef) : c.toJson.Plain 1 :=
  Json.Plain.object (by simp [Json.plain_textOption])

end CollectionRef

/-! ## Columns -/

theorem ColumnType.lookup_name (type : ColumnType) :
    ColumnType.names.lookup type.name = some type := by
  cases type <;> decide

namespace Column

section Attributes

variable {size : Option UInt32} {default : Option Value}

theorem keys_attributeMembers :
    ((attributeMembers size default).map Prod.fst).Sublist ["size", "defaultValue"] := by
  cases size <;> cases default <;> simp [attributeMembers]

theorem lookup_size : (attributeMembers size default).lookup "size" =
    size.map fun n => Json.int n.toNat := by
  cases size <;> cases default <;> rfl

theorem lookup_defaultValue : (attributeMembers size default).lookup "defaultValue" =
    default.map Value.toJson := by
  cases size <;> cases default <;> rfl

theorem lookup_attributeMembers {key : String} (hsize : key ≠ "size")
    (hdefault : key ≠ "defaultValue") : (attributeMembers size default).lookup key = none := by
  rw [List.lookup_eq_none_iff]
  intro m hm
  have hkey := keys_attributeMembers.subset (List.mem_map_of_mem hm)
  simp only [List.mem_cons, List.not_mem_nil, or_false] at hkey
  rcases hkey with hkey | hkey <;> simp [hkey, hsize, hdefault]

variable {fields : List String} {members : List (String × Json)}

/-- The size is read back. -/
theorem result_size (h : Record.Follows fields members)
    (hsize : members.lookup "size" = size.map fun n => Json.int n.toNat) :
    (Record.defaulted ⟨false, members⟩ "size" none (Json.readOption Json.readWord32)).result =
      .ok size := by
  rw [Record.defaulted, Record.result_field h.nodup, hsize]
  cases size with
  | none => rfl
  | some n =>
    show (Json.readWord32 (.int n.toNat)).map some = _
    rw [Json.readWord32_toNat]
    rfl

/-- The default is read back, except that null is no default. -/
theorem result_default (h : Record.Follows fields members)
    (hdefault : members.lookup "defaultValue" = default.map Value.toJson)
    (hfloat : ∀ v ∈ default, v.isFloat = false) :
    (Record.defaulted ⟨false, members⟩ "defaultValue" none
      (Json.readOption Value.ofJson)).result = .ok (default.filter fun v => !v.isNull) := by
  rw [Record.defaulted, Record.result_field h.nodup, hdefault]
  cases default with
  | none => rfl
  | some v =>
    by_cases hnull : v = .null
    · subst hnull
      rfl
    · have hread : Json.readOption Value.ofJson v.toJson = (Value.ofJson v.toJson).map some :=
        Json.readOption_of_ne_null fun h => hnull (Value.toJson_eq_null_iff.mp h)
      have hkeep : v.isNull = false := by
        cases v <;> first | rfl | exact absurd rfl hnull
      show Json.readOption Value.ofJson v.toJson = _
      rw [hread, Value.ofJson_toJson (hfloat v rfl), Option.filter_some, hkeep]
      rfl

theorem plain_attributeMembers (hfloat : ∀ v ∈ default, v.isFloat = false) :
    ∀ m ∈ attributeMembers size default, m.2.Plain 1 := by
  intro m hm
  rcases List.mem_append.mp hm with hm | hm
  · cases size with
    | none => cases hm
    | some n =>
      rw [List.mem_singleton.mp hm]
      refine Json.plain_nat ?_ 1
      have hbound : n.toNat < twoTo 32 := n.toNat_lt
      have hword : twoTo 32 ≤ Json.greatestWord := by decide
      exact hbound.le.trans hword
  · cases default with
    | none => cases hm
    | some v =>
      rw [List.mem_singleton.mp hm]
      exact Value.plain_toJson (hfloat v rfl)

end Attributes

/-- The column with its effective default in place of its default. -/
def settled (c : Column) : Column :=
  { c with default := c.effectiveDefault }

/-- **A column is read back with its effective default.** -/
theorem ofJson_toJson (reading : Json.Reading) {c : Column}
    (hfloat : ∀ v ∈ c.default, v.isFloat = false) : ofJson reading c.toJson = .ok c.settled := by
  have hrecord : Record.Follows ["name", "type", "size", "defaultValue", "autoIncrement"]
      ([("name", .text c.name), ("type", .text c.type.name)] ++
        attributeMembers c.size c.default ++ [("autoIncrement", .bool c.autoIncrement)]) := by
    refine ⟨?_, by decide⟩
    rw [List.map_append, List.map_append]
    exact ((List.Sublist.refl ["name", "type"]).append keys_attributeMembers).append
      (List.Sublist.refl ["autoIncrement"])
  refine (hrecord.read_eq _).trans ?_
  refine Located.seq_ok (Located.seq_ok (Located.seq_ok (Located.seq_ok (Located.map_ok
    (hrecord.field_ok rfl (Json.readText_text c.name)))
    (hrecord.field_ok rfl (Json.readName_text reading c.type.lookup_name)))
    (result_size hrecord ?_)) (result_default hrecord ?_ hfloat))
    (hrecord.field_ok ?_ (Json.readBool_bool c.autoIncrement))
  · simp [List.lookup_cons, List.lookup_append, lookup_size]
  · simp [List.lookup_cons, List.lookup_append, lookup_defaultValue]
  · simp [List.lookup_cons, List.lookup_append, lookup_attributeMembers]

theorem plain_toJson {c : Column} (hfloat : ∀ v ∈ c.default, v.isFloat = false) :
    c.toJson.Plain 2 := by
  refine Json.Plain.object fun m hm => ?_
  rcases List.mem_append.mp hm with hm | hm
  · rcases List.mem_append.mp hm with hm | hm
    · rcases List.mem_pair.mp hm with rfl | rfl <;> exact Json.plain_text 1 _
    · exact plain_attributeMembers hfloat m hm
  · rw [List.mem_singleton.mp hm]
    exact Json.plain_bool 1 _

end Column

/-! ## Indexes -/

theorem Direction.lookup_name (direction : Direction) :
    Direction.names.lookup direction.name = some direction := by
  cases direction <;> decide

theorem IndexKind.lookup_name (kind : IndexKind) :
    IndexKind.names.lookup kind.name = some kind := by
  cases kind <;> decide

namespace IndexColumn

theorem ofJson_toJson (reading : Json.Reading) (c : IndexColumn) :
    ofJson reading c.toJson = .ok c :=
  Record.read_two (by decide) (Json.readText_text c.field)
    (Json.readName_text reading c.direction.lookup_name)

theorem plain_toJson (c : IndexColumn) : c.toJson.Plain 1 :=
  Json.Plain.object (by simp)

end IndexColumn

namespace Index

theorem ofJson_toJson (reading : Json.Reading) (i : Index) : ofJson reading i.toJson = .ok i := by
  have hcolumns : Json.readList (IndexColumn.ofJson reading)
      (.array (i.columns.map IndexColumn.toJson)) = .ok i.columns :=
    Json.readList_written fun c _ => c.ofJson_toJson reading
  exact Record.read_three (by decide) (Json.readText_text i.name)
    (Json.readName_text reading i.kind.lookup_name) hcolumns

theorem plain_toJson (i : Index) : i.toJson.Plain 3 := by
  have hcolumns : Json.Plain 2 (.array (i.columns.map IndexColumn.toJson)) :=
    Json.Plain.map fun c _ => c.plain_toJson
  exact Json.Plain.object (by simpa using hcolumns)

end Index

end SchemaMigration
