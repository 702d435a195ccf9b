import SchemaMigration.Json.Record
import SchemaMigration.Proofs.Outcome

/-!
# What the fields of a record decode to

A decoder of records reads every field at its place and keeps the earliest fault. On an object whose
keys are declared fields in declared order, as the writers make them, places do not matter: a field
is the decoded value under its key, and all of them are there iff each of them is.

* `Located.result` forgets the place. `result_seq_of_ok` and `result_seq_ok` follow one part of a
  record beside others that succeed.
* `Record.result_field`: a field is what the value under its key decodes to, or its default.
* `Record.Follows` says that the keys of an object are as its writer leaves them. `Record.read_one`,
  `read_two` and `read_three` follow for the objects whose fields are all written, and
  `Record.splitTag_cons` opens a tagged record.
* `Json.readItems_map`: the items of a list that are decoded one by one.
-/

namespace SchemaMigration

/-! ## Values without their places -/

namespace Located

variable {α β γ : Type}

/-- The value, or the reason of the earliest fault. -/
def result (x : Located α) : Read α :=
  x.outcome.mapError Prod.snd

theorem result_atPlace (place : Nat) (a : Read α) : (atPlace place a).result = a := by
  cases a <;> rfl

theorem result_map (f : α → β) (x : Located α) : (f <$> x).result = x.result.map f := by
  obtain ⟨outcome⟩ := x
  cases outcome <;> rfl

theorem outcome_of_result {x : Located α} {a : α} (h : x.result = .ok a) : x.outcome = .ok a :=
  mapError_eq_ok_iff.mp h

/-- After a first part that succeeds, the second part decides. -/
theorem result_seq_of_ok {f : Located (α → β)} {g : α → β} {x : Located α} {r : Read α}
    (hf : f.result = .ok g) (hx : x.result = r) : (f <*> x).result = r.map g := by
  subst hx
  obtain ⟨outcome⟩ := f
  obtain rfl : outcome = .ok g := outcome_of_result hf
  obtain ⟨outcome⟩ := x
  cases outcome <;> rfl

/-- Before a second part that succeeds, whatever decided the first part decides both. -/
theorem result_seq_ok {f : Located (α → β)} {r : Read γ} {g : γ → α → β} {x : Located α} {a : α}
    (hf : f.result = r.map g) (hx : x.result = .ok a) :
    (f <*> x).result = r.map fun c => g c a := by
  obtain ⟨outcome⟩ := x
  obtain rfl : outcome = .ok a := outcome_of_result hx
  obtain ⟨outcome⟩ := f
  cases r <;> cases outcome <;> cases hf <;> rfl

theorem map_ok {f : α → β} {x : Located α} {a : α} (hx : x.result = .ok a) :
    (f <$> x).result = .ok (f a) := by
  rw [result_map, hx]
  rfl

theorem seq_ok {f : Located (α → β)} {g : α → β} {x : Located α} {a : α}
    (hf : f.result = .ok g) (hx : x.result = .ok a) : (f <*> x).result = .ok (g a) :=
  result_seq_of_ok hf hx

end Located

/-! ## Fields -/

namespace Record

variable {α : Type}

/-- A member under another key is passed over. -/
theorem lookup_cons_of_ne {key k : String} (h : key ≠ k) (j : Json) (r : List (String × Json)) :
    ((k, j) :: r).lookup key = r.lookup key := by
  simp [List.lookup_cons, beq_false_of_ne h]

/-- The value under a key that occurs once is the only one found. -/
theorem find_zipIdx {members : List (String × Json)} (hkeys : (members.map Prod.fst).Nodup)
    (key : String) (start : Nat) :
    ∃ place, ((members.zipIdx start).filterMap fun member =>
        if member.1.1 = key then some (member.2, member.1.2) else none) =
      ((members.lookup key).map fun j => (place, j)).toList := by
  induction members generalizing start with
  | nil => exact ⟨0, rfl⟩
  | cons m r ih =>
    obtain ⟨k, j⟩ := m
    rw [List.map_cons, List.nodup_cons] at hkeys
    obtain ⟨place, hplace⟩ := ih hkeys.2 (start + 1)
    by_cases hk : k = key
    · subst hk
      have hnone : r.lookup k = none := by
        rw [List.lookup_eq_none_iff]
        intro m hm
        have hne : k ≠ m.1 := fun h => hkeys.1 (List.mem_map.mpr ⟨m, hm, h.symm⟩)
        simpa using hne
      rw [hnone] at hplace
      exact ⟨start, by simp [List.zipIdx_cons, hplace]⟩
    · exact ⟨place, by simp [List.zipIdx_cons, hk, hplace, lookup_cons_of_ne (Ne.symm hk)]⟩

/-- **A field is what the value under its key decodes to, or its default where the key is
missing.** -/
theorem result_field {members : List (String × Json)} (hkeys : (members.map Prod.fst).Nodup)
    (key : String) (absent : Read α) (read : Json → Read α) :
    (field ⟨false, members⟩ key absent read).result = (members.lookup key).elim absent read := by
  obtain ⟨place, hplace⟩ := find_zipIdx hkeys key 0
  have hfind : find ⟨false, members⟩ key = ((members.lookup key).map fun j => (place, j)).toList :=
    hplace
  rw [field, hfind]
  cases members.lookup key with
  | none => exact Located.result_atPlace _ absent
  | some j => exact Located.result_atPlace _ (read j)

/-- Nothing strays from the fields if every other member may be passed over. -/
theorem close_eq_result {members : List (String × Json)} {fields : List String}
    (h : ∀ m ∈ members, m.1 ∈ fields ∨ isPassed m.2 = true) (value : Located α) :
    close ⟨false, members⟩ fields value = value.result := by
  have hnone : (members.zipIdx.find? fun member =>
      !fields.contains member.1.1 && (false || !isPassed member.1.2)) = none := by
    rw [List.find?_eq_none]
    rintro ⟨m, place⟩ hm
    have hmember : m ∈ members := by
      have := List.mem_map_of_mem (f := Prod.fst) hm
      rwa [List.zipIdx_map_fst] at this
    rcases h m hmember with hfield | hpassed
    · simp [hfield]
    · simp [hpassed]
  obtain ⟨outcome⟩ := value
  rw [close, strays, hnone]
  cases outcome <;> rfl

/-- The members have some of the fields as keys, in declared order. -/
structure Follows (fields : List String) (members : List (String × Json)) : Prop where
  /-- The keys are fields in declared order. -/
  sublist : (members.map Prod.fst).Sublist fields
  /-- No field is declared twice. -/
  distinct : fields.Nodup

namespace Follows

variable {fields : List String} {members : List (String × Json)}

theorem nodup (h : Follows fields members) : (members.map Prod.fst).Nodup :=
  h.sublist.nodup h.distinct

/-- The record decodes to what its fields do. -/
theorem read_eq (h : Follows fields members) (value : Record → Located α) :
    read fields value (.object members) = (value ⟨false, members⟩).result :=
  close_eq_result (fun _ hm => Or.inl (h.sublist.subset (List.mem_map_of_mem hm))) _

theorem field_eq (h : Follows fields members) {key : String} {j : Json}
    (hj : members.lookup key = some j) (absent : Read α) (read : Json → Read α) :
    (field ⟨false, members⟩ key absent read).result = read j := by
  rw [result_field h.nodup, hj]
  rfl

theorem field_ok (h : Follows fields members) {key : String} {j : Json} {absent : Read α}
    {read : Json → Read α} {a : α} (hj : members.lookup key = some j) (hread : read j = .ok a) :
    (field ⟨false, members⟩ key absent read).result = .ok a :=
  (h.field_eq hj absent read).trans hread

end Follows

section Written

variable {α₁ α₂ α₃ : Type} {k₁ k₂ k₃ : String} {j₁ j₂ j₃ : Json} {read₁ : Json → Read α₁}
  {read₂ : Json → Read α₂} {read₃ : Json → Read α₃} {absent₁ : Record → Read α₁}
  {absent₂ : Record → Read α₂} {absent₃ : Record → Read α₃} {a₁ : α₁} {a₂ : α₂} {a₃ : α₃}

/-- A record of one field reads back if its field does. -/
theorem read_one {f : α₁ → α} (h₁ : read₁ j₁ = .ok a₁) :
    read [k₁] (fun r => f <$> r.field k₁ (absent₁ r) read₁) (.object [(k₁, j₁)]) =
      .ok (f a₁) := by
  have hrecord : Follows [k₁] [(k₁, j₁)] := ⟨List.Sublist.refl _, by simp⟩
  exact (hrecord.read_eq _).trans
    (Located.map_ok (hrecord.field_ok List.lookup_cons_self h₁))

/-- A record of two fields reads back if both do. -/
theorem read_two {f : α₁ → α₂ → α} (hkeys : [k₁, k₂].Nodup) (h₁ : read₁ j₁ = .ok a₁)
    (h₂ : read₂ j₂ = .ok a₂) :
    read [k₁, k₂]
      (fun r => f <$> r.field k₁ (absent₁ r) read₁ <*> r.field k₂ (absent₂ r) read₂)
      (.object [(k₁, j₁), (k₂, j₂)]) = .ok (f a₁ a₂) := by
  have hrecord : Follows [k₁, k₂] [(k₁, j₁), (k₂, j₂)] := ⟨List.Sublist.refl _, hkeys⟩
  have hne : k₁ ≠ k₂ := by simpa using hkeys
  have hlookup : [(k₁, j₁), (k₂, j₂)].lookup k₂ = some j₂ :=
    (lookup_cons_of_ne hne.symm _ _).trans List.lookup_cons_self
  exact (hrecord.read_eq _).trans (Located.seq_ok
    (Located.map_ok (hrecord.field_ok List.lookup_cons_self h₁)) (hrecord.field_ok hlookup h₂))

/-- A record of three fields reads back if all of them do. -/
theorem read_three {f : α₁ → α₂ → α₃ → α} (hkeys : [k₁, k₂, k₃].Nodup)
    (h₁ : read₁ j₁ = .ok a₁) (h₂ : read₂ j₂ = .ok a₂) (h₃ : read₃ j₃ = .ok a₃) :
    read [k₁, k₂, k₃]
      (fun r => f <$> r.field k₁ (absent₁ r) read₁ <*> r.field k₂ (absent₂ r) read₂
        <*> r.field k₃ (absent₃ r) read₃)
      (.object [(k₁, j₁), (k₂, j₂), (k₃, j₃)]) = .ok (f a₁ a₂ a₃) := by
  have hrecord : Follows [k₁, k₂, k₃] [(k₁, j₁), (k₂, j₂), (k₃, j₃)] :=
    ⟨List.Sublist.refl _, hkeys⟩
  obtain ⟨⟨hne, hne'⟩, hne''⟩ : (k₁ ≠ k₂ ∧ k₁ ≠ k₃) ∧ k₂ ≠ k₃ := by simpa using hkeys
  have hlookup : [(k₁, j₁), (k₂, j₂), (k₃, j₃)].lookup k₂ = some j₂ :=
    (lookup_cons_of_ne hne.symm _ _).trans List.lookup_cons_self
  have hlookup' : [(k₁, j₁), (k₂, j₂), (k₃, j₃)].lookup k₃ = some j₃ :=
    ((lookup_cons_of_ne hne'.symm _ _).trans (lookup_cons_of_ne hne''.symm _ _)).trans
      List.lookup_cons_self
  exact (hrecord.read_eq _).trans (Located.seq_ok (Located.seq_ok
    (Located.map_ok (hrecord.field_ok List.lookup_cons_self h₁)) (hrecord.field_ok hlookup h₂))
    (hrecord.field_ok hlookup' h₃))

end Written

/-- A tagged record falls apart into its tag, which is written first, and its other members. -/
theorem splitTag_cons {tag word : String} {readTag : Json → Read String}
    (hread : readTag (.text word) = .ok word) {members : List (String × Json)}
    (htag : tag ∉ members.map Prod.fst) :
    splitTag tag readTag (.object ((tag, .text word) :: members)) =
      .ok (word, .object members) := by
  have hne : ∀ m ∈ members, m.1 ≠ tag := fun m hm h => htag (h ▸ List.mem_map_of_mem hm)
  have hnone : members.filter (fun m => m.1 == tag) = [] :=
    List.filter_eq_nil_iff.mpr fun m hm => by simpa using hne m hm
  have hall : members.filter (fun m => m.1 != tag) = members :=
    List.filter_eq_self.mpr fun m hm => by simpa using hne m hm
  simp only [splitTag, List.filter_cons, beq_self_eq_true, if_true, hnone, bne_self_eq_false,
    Bool.false_eq_true, if_false, hall, hread]
  rfl

end Record

/-! ## Leaves -/

namespace Json

variable {α β : Type}

/-- Items that are decoded one by one are decoded as a list. -/
theorem readItems_map {read : Json → Read β} {write : α → Json} {f : α → β} {as : List α}
    (h : ∀ a ∈ as, read (write a) = .ok (f a)) :
    readItems read (as.map write) = .ok (as.map f) := by
  induction as with
  | nil => rfl
  | cons a r ih =>
    rw [List.map_cons, readItems, h a List.mem_cons_self,
      ih fun b hb => h b (List.mem_cons_of_mem a hb)]
    rfl

theorem readList_map {read : Json → Read β} {write : α → Json} {f : α → β} {as : List α}
    (h : ∀ a ∈ as, read (write a) = .ok (f a)) :
    readList read (.array (as.map write)) = .ok (as.map f) :=
  readItems_map h

/-- A list whose items are read back is read back. -/
theorem readList_written {read : Json → Read α} {write : α → Json} {as : List α}
    (h : ∀ a ∈ as, read (write a) = .ok a) : readList read (.array (as.map write)) = .ok as :=
  (readItems_map h).trans (congrArg Except.ok (List.map_id as))

theorem readText_text (s : String) : readText (.text s) = .ok s := rfl

theorem readWordOrPosition_text (words : List String) (s : String) :
    readWordOrPosition words (.text s) = .ok s := rfl

theorem readBool_bool (b : Bool) : readBool (.bool b) = .ok b := rfl

theorem readOption_of_ne_null {read : Json → Read α} {j : Json} (h : j ≠ .null) :
    readOption read j = (read j).map some := by
  unfold readOption
  split
  · exact absurd rfl h
  · rfl

theorem readOption_text (s : Option String) :
    readOption readText ((s.map Json.text).getD .null) = .ok s := by
  cases s <;> rfl

theorem readNat_ofNat {n bound : Nat} (h : n ≤ bound) : readNat bound (.int n) = .ok n := by
  simp [readNat, h]

theorem readWord32_toNat (n : UInt32) : readWord32 (.int n.toNat) = .ok n := by
  have hbound : n.toNat ≤ twoTo 32 - 1 := Nat.le_sub_one_of_lt n.toNat_lt
  rw [readWord32, readNat_ofNat hbound]
  exact congrArg Except.ok UInt32.ofNat_toNat

theorem readWord64_toNat (n : UInt64) : readWord64 (.int n.toNat) = .ok n := by
  have hbound : n.toNat ≤ twoTo 64 - 1 := Nat.le_sub_one_of_lt n.toNat_lt
  rw [readWord64, readNat_ofNat hbound]
  exact congrArg Except.ok UInt64.ofNat_toNat

theorem readName_text (reading : Reading) {names : List (String × α)} {s : String} {a : α}
    (h : names.lookup s = some a) : readName reading names (.text s) = .ok a := by
  simp [readName, word?, h]

end Json

end SchemaMigration
