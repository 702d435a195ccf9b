import SchemaMigration.Proofs.Query.Completeness
import SchemaMigration.Proofs.Statement.Placeholders

/-!
# Assigning field by field

The assignments of an insert or an update are a map that keeps the order of insertion. Whatever the
calls were, each field that they assigned to is there once, at the place of its first assignment and
with the operand of its last one; a condition that an update is given in between changes nothing.
So no statement that such a query compiles to names a column twice.

About the `set` of `Insert` and `Update`, and what `compile_insert` and `compile_update` write.

* `Assignments.MapOf`: the insertion-ordered map of a sequence of calls;
  `Assignments.MapOf.unique`: there is only one.
* **`Assignments.MapOf.put`**: what one more assignment makes of it.
* `Query.Sets`, `Query.AssignedBy`: one call, and the queries that a sequence of calls makes;
  `Query.made_iff_assignedBy`: these are the inserts and updates that can be made.
* `Query.AssignedBy.mapOf`: what they assign, by induction on the calls.
* **`Query.AssignedBy.columns_distinct`**: the assignments of such a query, and the columns of the
  statement that it compiles to.
-/

namespace SchemaMigration

/-! ## Order of first occurrence -/

section FirstOccurrence

variable {α : Type} [BEq α] [LawfulBEq α] {l as : List α}

/-- What stands in the order of first occurrence still does when more follows. -/
theorem pairwise_idxOf_append (more : List α) (hmem : ∀ a ∈ as, a ∈ l)
    (h : as.Pairwise fun a b => l.idxOf a < l.idxOf b) :
    as.Pairwise fun a b => (l ++ more).idxOf a < (l ++ more).idxOf b :=
  h.imp_of_mem fun ha hb hlt => by
    rwa [List.idxOf_append_of_mem (hmem _ ha), List.idxOf_append_of_mem (hmem _ hb)]

/-- What occurs for the first time comes last. -/
theorem pairwise_idxOf_concat {a : α} (ha : a ∉ l) (hmem : ∀ b ∈ as, b ∈ l)
    (h : as.Pairwise fun a b => l.idxOf a < l.idxOf b) :
    (as ++ [a]).Pairwise fun b c => (l ++ [a]).idxOf b < (l ++ [a]).idxOf c := by
  refine List.pairwise_append.mpr
    ⟨pairwise_idxOf_append [a] hmem h, List.pairwise_singleton _ _, fun b hb c hc => ?_⟩
  rw [List.mem_singleton.mp hc, List.idxOf_append_of_mem (hmem b hb),
    List.idxOf_append_of_notMem ha]
  exact Nat.lt_add_right _ (List.idxOf_lt_length_of_mem (hmem b hb))

end FirstOccurrence

/-! ## The map of a sequence of calls -/

namespace Assignments

/-- The assignments are the insertion-ordered map of the calls. -/
structure MapOf (a calls : Assignments) : Prop where
  /-- No field is there twice. -/
  distinct : (a.map Prod.fst).Nodup
  /-- The fields are those that were assigned to. -/
  mem_iff : ∀ field, field ∈ a.map Prod.fst ↔ field ∈ calls.map Prod.fst
  /-- Whatever stands before a field was first assigned to before it. -/
  ordered : (a.map Prod.fst).Pairwise fun f g =>
    (calls.map Prod.fst).idxOf f < (calls.map Prod.fst).idxOf g
  /-- Each field has the operand of the last call that assigned to it. -/
  last : ∀ entry ∈ a, calls.reverse.lookup entry.1 = some entry.2

theorem MapOf.nil : MapOf [] [] :=
  ⟨List.nodup_nil, fun _ => Iff.rfl, List.Pairwise.nil, List.forall_mem_nil _⟩

/-- The fields and the calls determine the assignments. -/
theorem MapOf.eq_filterMap {a calls : Assignments} (h : a.MapOf calls) :
    a = (a.map Prod.fst).filterMap fun f => (calls.reverse.lookup f).map (Prod.mk f) :=
  calc a = a.filterMap some := List.filterMap_some.symm
    _ = a.filterMap fun entry => (calls.reverse.lookup entry.1).map (Prod.mk entry.1) :=
      List.filterMap_congr fun entry hentry => by rw [h.last entry hentry, Option.map_some]
    _ = _ := by
      rw [List.filterMap_map]
      rfl

/-- A sequence of calls has only one map. -/
theorem MapOf.unique {a b calls : Assignments} (ha : a.MapOf calls) (hb : b.MapOf calls) :
    a = b := by
  have hperm : (a.map Prod.fst).Perm (b.map Prod.fst) :=
    (List.perm_ext_iff_of_nodup ha.distinct hb.distinct).mpr fun f =>
      (ha.mem_iff f).trans (hb.mem_iff f).symm
  have hfields : a.map Prod.fst = b.map Prod.fst :=
    hperm.eq_of_pairwise (fun f g _ _ hfg hgf => absurd hfg hgf.asymm) ha.ordered hb.ordered
  rw [ha.eq_filterMap, hb.eq_filterMap, hfields]

/-- Where the fields are distinct, an assignment leaves nothing else of its field. -/
theorem eq_or_mem_of_mem_put {field : String} {operand : Operand} {entry : String × Operand}
    {a : Assignments} (ha : (a.map Prod.fst).Nodup) (h : entry ∈ put field operand a) :
    entry = (field, operand) ∨ entry ∈ a ∧ entry.1 ≠ field := by
  induction a with
  | nil => exact Or.inl (List.mem_singleton.mp h)
  | cons first rest ih =>
    obtain ⟨hfirst, hrest⟩ := List.nodup_cons.mp ha
    unfold put at h
    split at h
    · rename_i hfield
      rcases List.mem_cons.mp h with h | h
      · exact Or.inl h
      · have hne : entry.1 ≠ field := fun hentry =>
          hfirst (hfield ▸ hentry ▸ List.mem_map_of_mem h)
        exact Or.inr ⟨List.mem_cons_of_mem _ h, hne⟩
    · rename_i hne
      rcases List.mem_cons.mp h with rfl | h
      · exact Or.inr ⟨List.mem_cons_self, hne⟩
      · exact (ih hrest h).imp_right fun h => ⟨List.mem_cons_of_mem _ h.1, h.2⟩

/-- **One more assignment** makes the map of some calls the map of these calls and one more. -/
theorem MapOf.put {a calls : Assignments} (h : a.MapOf calls) (field : String)
    (operand : Operand) : (Assignments.put field operand a).MapOf (calls ++ [(field, operand)]) := by
  have hcalls : (calls ++ [(field, operand)]).map Prod.fst = calls.map Prod.fst ++ [field] := by simp
  have hmem : ∀ f ∈ a.map Prod.fst, f ∈ calls.map Prod.fst := fun f => (h.mem_iff f).mp
  refine ⟨nodup_put h.distinct, fun f => ?_, ?_, fun entry hentry => ?_⟩
  · rw [map_fst_put, hcalls, List.mem_append, List.mem_singleton, ← h.mem_iff f]
    split
    · rename_i hfield
      exact (or_iff_left_of_imp fun hf => hf ▸ hfield).symm
    · rw [List.mem_append, List.mem_singleton]
  · rw [map_fst_put, hcalls]
    split
    · exact pairwise_idxOf_append [field] hmem h.ordered
    · rename_i hfield
      exact pairwise_idxOf_concat (mt (h.mem_iff field).mpr hfield) hmem h.ordered
  · rw [List.reverse_append, List.reverse_singleton, List.singleton_append]
    -- The new call is the last one to its own field, and leaves the last ones to the others.
    rcases eq_or_mem_of_mem_put h.distinct hentry with rfl | ⟨hentry, hne⟩
    · exact List.lookup_cons_self
    · rw [List.lookup_cons, beq_false_of_ne hne]
      exact h.last entry hentry

/-- Something with assignments in it takes one more iff the field is an identifier. -/
theorem map_set_eq_ok_iff {σ : Type} {within : Assignments → σ} {a : Assignments} {field : String}
    {operand : Operand} {s : σ} : (Assignments.set a field operand).map within = .ok s ↔
      Identifier.misuse? field = none ∧ within (Assignments.put field operand a) = s := by
  rw [map_eq_ok_iff]
  constructor
  · rintro ⟨values, hvalues, rfl⟩
    obtain ⟨hfield, rfl⟩ := set_eq_ok_iff.mp hvalues
    exact ⟨hfield, rfl⟩
  · rintro ⟨hfield, rfl⟩
    exact ⟨_, set_eq_ok_iff.mpr ⟨hfield, rfl⟩, rfl⟩

end Assignments

/-! ## Queries that calls make -/

theorem Insert.set_eq_ok_iff {q q' : Insert} {field : String} {operand : Operand} :
    q.set field operand = .ok q' ↔ Identifier.misuse? field = none ∧
      ⟨q.collection, Assignments.put field operand q.values⟩ = q' := by
  rw [q.set_eq_map, Assignments.map_set_eq_ok_iff]

theorem Update.set_eq_ok_iff {q q' : Update} {field : String} {operand : Operand} :
    q.set field operand = .ok q' ↔ Identifier.misuse? field = none ∧
      ⟨q.collection, Assignments.put field operand q.values, q.predicate⟩ = q' := by
  rw [q.set_eq_map, Assignments.map_set_eq_ok_iff]

namespace Query

/-- A field of an insert or an update is assigned to, and the call succeeds. -/
inductive Sets (field : String) (operand : Operand) : Query → Query → Prop
  | insert {q q' : Insert} : q.set field operand = .ok q' →
    Sets field operand (.insert q) (.insert q')
  | update {q q' : Update} : q.set field operand = .ok q' →
    Sets field operand (.update q) (.update q')

/-- The inserts and updates that successful calls make, with the assignments of these calls in their
order. An update may be given conditions in between. -/
inductive AssignedBy : Query → Assignments → Prop
  | insert (c : CollectionRef) : AssignedBy (.insert (.into c)) []
  | update (c : CollectionRef) : AssignedBy (.update (.of c)) []
  | set {q q' : Query} {calls : Assignments} {field : String} {operand : Operand} :
    q.AssignedBy calls → q.Sets field operand q' → q'.AssignedBy (calls ++ [(field, operand)])
  | alsoMatching {q q' : Update} {calls : Assignments} {p : Predicate} :
    AssignedBy (.update q) calls → q.alsoMatching p = .ok q' → AssignedBy (.update q') calls

end Query

theorem Insert.Made.exists_assignedBy {q : Insert} (h : q.Made) :
    ∃ calls, (Query.insert q).AssignedBy calls := by
  induction h with
  | into c => exact ⟨[], .insert c⟩
  | set _ hset ih =>
    obtain ⟨calls, hcalls⟩ := ih
    exact ⟨_, hcalls.set (.insert hset)⟩

theorem Update.Made.exists_assignedBy {q : Update} (h : q.Made) :
    ∃ calls, (Query.update q).AssignedBy calls := by
  induction h with
  | of c => exact ⟨[], .update c⟩
  | set _ hset ih =>
    obtain ⟨calls, hcalls⟩ := ih
    exact ⟨_, hcalls.set (.update hset)⟩
  | alsoMatching _ hcondition ih =>
    obtain ⟨calls, hcalls⟩ := ih
    exact ⟨calls, hcalls.alsoMatching hcondition⟩

namespace Query

variable {q q' : Query} {a calls : Assignments} {field : String} {operand : Operand}

/-- A call that succeeds puts the operand to its field. -/
theorem Sets.assignments? (h : q.Sets field operand q') (hq : q.assignments? = some a) :
    q'.assignments? = some (Assignments.put field operand a) := by
  cases h with
  | insert h =>
    obtain ⟨-, rfl⟩ := Insert.set_eq_ok_iff.mp h
    cases hq
    rfl
  | update h =>
    obtain ⟨-, rfl⟩ := Update.set_eq_ok_iff.mp h
    cases hq
    rfl

/-- On an insert or an update a call succeeds iff its field is an identifier. -/
theorem exists_sets_iff (hq : q.assignments? = some a) :
    (∃ q', q.Sets field operand q') ↔ Identifier.misuse? field = none := by
  constructor
  · rintro ⟨q', h | h⟩
    · exact (Insert.set_eq_ok_iff.mp h).1
    · exact (Update.set_eq_ok_iff.mp h).1
  · intro hfield
    cases q, a, hq using assigning_cases with
    | insert q => exact ⟨_, .insert (Insert.set_eq_ok_iff.mpr ⟨hfield, rfl⟩)⟩
    | update q => exact ⟨_, .update (Update.set_eq_ok_iff.mpr ⟨hfield, rfl⟩)⟩

/-- **What calls assign** is their insertion-ordered map. -/
theorem AssignedBy.mapOf (h : q.AssignedBy calls) :
    ∃ values, q.assignments? = some values ∧ values.MapOf calls := by
  induction h with
  | insert c => exact ⟨[], rfl, .nil⟩
  | update c => exact ⟨[], rfl, .nil⟩
  | set _ hset ih =>
    obtain ⟨values, hvalues, hmap⟩ := ih
    exact ⟨_, hset.assignments? hvalues, hmap.put _ _⟩
  | alsoMatching _ hcondition ih =>
    obtain ⟨values, hvalues, hmap⟩ := ih
    obtain ⟨⟨⟩, -, hcondition⟩ := bind_eq_ok_iff.mp hcondition
    cases hcondition
    exact ⟨values, hvalues, hmap⟩

theorem AssignedBy.made (h : q.AssignedBy calls) : q.Made := by
  induction h with
  | insert c => exact Insert.Made.into c
  | update c => exact Update.Made.of c
  | set _ hset ih =>
    cases hset with
    | insert h => exact Insert.Made.set ih h
    | update h => exact Update.Made.set ih h
  | alsoMatching _ hcondition ih => exact Update.Made.alsoMatching ih hcondition

/-- **An insert or an update can be made iff calls make it.** -/
theorem made_iff_assignedBy (hq : q.assignments? = some a) :
    q.Made ↔ ∃ calls, q.AssignedBy calls := by
  constructor
  · intro h
    cases q, a, hq using assigning_cases with
    | insert q => exact Insert.Made.exists_assignedBy h
    | update q => exact Update.Made.exists_assignedBy h
  · rintro ⟨calls, h⟩
    exact h.made

/-- SQLite has a statement for every query that assigns to fields. -/
theorem not_beyondSqlite_of_assigning (hq : q.assignments? = some a) : ¬q.BeyondSqlite := by
  cases q, a, hq using assigning_cases with
  | insert q => exact id
  | update q => exact id

end Query

/-! ## Columns of a statement -/

/-- The columns that a statement assigns to, in the order of the text. -/
def Statement.columns? (s : Statement) : Option (List String) :=
  s.assigned?.map fun columns => columns.map Prod.fst

namespace Query

/-- An insert or an update compiles to one statement, whose columns are its fields. -/
theorem columns?_compile {q : Query} {values : Assignments} {d : Dialect} {vars : Variables}
    {cq : CompiledQuery} (hq : q.assignments? = some values) (h : q.compile d vars = .ok cq) :
    ∃ s, cq.statements = [s] ∧ s.columns? = some (values.map Prod.fst) := by
  have hrows : q.kind.isOnRows = true := by
    cases q, values, hq using assigning_cases with
    | insert q => rfl
    | update q => rfl
  obtain ⟨ss, hss, h⟩ := bind_eq_ok_iff.mp h
  cases h
  obtain ⟨ps, rfl, -⟩ := stands_pieces hrows hss
  have hlength : (values.map Prod.fst).length ≤
      ((List.range' 1 values.length).map d.placeholder).length := by simp
  refine ⟨_, rfl, ?_⟩
  rw [Statement.columns?, assigned?_statements hq hss, Option.map_some, List.map_fst_zip hlength]

/-- **Assignments are a map that keeps the order of insertion.** The query that calls make assigns
just the map of these calls: each field once, where it was first assigned to, with the operand of
its last assignment. A further call succeeds iff its field is an identifier. The query compiles when
its variables have values and no part is missing; whenever it compiles, the columns in the text of
its one statement are these fields, none of them twice. -/
theorem AssignedBy.columns_distinct {q : Query} {calls : Assignments} (h : q.AssignedBy calls) :
    ∃ values, q.assignments? = some values ∧ (∀ a : Assignments, a.MapOf calls ↔ a = values) ∧
      (∀ field operand, (∃ q', q.Sets field operand q') ↔ Identifier.misuse? field = none) ∧
      ∀ (d : Dialect) (vars : Variables),
        (q.Bound vars → q.missing? = none → ∃ cq, q.compile d vars = .ok cq) ∧
          ∀ cq, q.compile d vars = .ok cq → ∃ s columns, cq.statements = [s] ∧
            s.columns? = some columns ∧ columns = values.map Prod.fst ∧ columns.Nodup := by
  obtain ⟨values, hvalues, hmap⟩ := h.mapOf
  have hmade : q.Made := (made_iff_assignedBy hvalues).mpr ⟨calls, h⟩
  refine ⟨values, hvalues, fun a => ⟨fun ha => ha.unique hmap, fun ha => ha ▸ hmap⟩,
    fun _ _ => exists_sets_iff hvalues, fun d vars => ⟨fun hvars hmissing => ?_, fun cq hcq => ?_⟩⟩
  · exact (hmade.limited hvars hmissing).done fun hbeyond =>
      not_beyondSqlite_of_assigning hvalues hbeyond.2
  · obtain ⟨s, hs, hcolumns⟩ := columns?_compile hvalues hcq
    exact ⟨s, _, hs, hcolumns, rfl, hmap.distinct⟩

end Query

namespace Posts

/-- The assignments of a revised post, its views being assigned twice. -/
def revising : Assignments :=
  [("views", .value (.int 1)), ("title", .variable "title"), ("views", .value (.int 2))]

/-- The condition of a revision. -/
def revisedOnly : Predicate := .compare "id" .eq (.value (.int 7))

/-- The revision of a post. -/
def revised : Update :=
  ⟨collection, [("views", .value (.int 2)), ("title", .variable "title")], some revisedOnly⟩

/-- The condition is given between two assignments. -/
theorem assignedBy_revised : (Query.update revised).AssignedBy revising := by
  have hviews : (Update.of collection).set "views" (.value (.int 1)) =
      .ok ⟨collection, [("views", .value (.int 1))], none⟩ := rfl
  have hcondition : Update.alsoMatching ⟨collection, [("views", .value (.int 1))], none⟩
      revisedOnly = .ok ⟨collection, [("views", .value (.int 1))], some revisedOnly⟩ := rfl
  have htitle : Update.set ⟨collection, [("views", .value (.int 1))], some revisedOnly⟩ "title"
      (.variable "title") = .ok ⟨collection, [("views", .value (.int 1)),
        ("title", .variable "title")], some revisedOnly⟩ := rfl
  have hagain : Update.set ⟨collection, [("views", .value (.int 1)),
      ("title", .variable "title")], some revisedOnly⟩ "views" (.value (.int 2)) =
        .ok revised := rfl
  have hfirst := (Query.AssignedBy.update collection).set (.update hviews)
  exact ((hfirst.alsoMatching hcondition).set (.update htitle)).set (.update hagain)

end Posts

/-- A field that is assigned to again keeps its place and names one column. -/
theorem Query.AssignedBy.columns_of_posts :
    (Query.update Posts.revised).AssignedBy Posts.revising ∧
      Posts.revised.values.MapOf Posts.revising ∧
      ∃ cq, (Query.update Posts.revised).compile .postgres [("title", .text "Hello")] = .ok cq ∧
        ∃ s, cq.statements = [s] ∧ s.columns? = some ["views", "title"] := by
  obtain ⟨values, hvalues, hmap, -, hcompile⟩ :=
    Query.AssignedBy.columns_distinct Posts.assignedBy_revised
  cases hvalues
  have hbound : (Query.update Posts.revised).Bound [("title", .text "Hello")] := by
    unfold Query.Bound
    decide
  obtain ⟨hcompiles, hcolumns⟩ := hcompile .postgres [("title", .text "Hello")]
  obtain ⟨cq, hcq⟩ := hcompiles hbound rfl
  obtain ⟨s, columns, hs, hread, rfl, -⟩ := hcolumns cq hcq
  exact ⟨Posts.assignedBy_revised, (hmap _).mpr rfl, cq, hcq, s, hs, hread⟩

end SchemaMigration
