import SchemaMigration.Proofs.Migration.Creation

/-!
# What grouping keeps of the operations

A batch turns operations, which are about any number of collections in any order, into queries that
are about one collection each. Every decision about an alteration has a step of its own, and the
steps of an alteration are those, in another order, and what builds indexes again around retyped
columns. Of several creations of one collection only the last one is kept.

About `batch` and `group_for`.

* `AlterStep.CarriesOut`: the step carries out the change.
* `CarriesOutAll`: the steps carry out the operations one by one, and else build indexes again.
* `exists_carriesOutAll`: so do the steps that decisions make up.
* `Batched`: a batch has one query for a collection, and no operation is lost in it.
* **`Migrator.batched_iff`**: this holds iff no collection is created twice in different ways, or
  created and altered; so it does for the plan of a schema that declares every collection once.
-/

namespace SchemaMigration

/-! ## Steps that carry out operations -/

/-- The step carries out the change. Of an added column the source is open; it is one of the
candidates. -/
inductive AlterStep.CarriesOut : Change → AlterStep → Prop
  | addColumn (c : ColumnDescription) (candidates : List String) (source : Option String)
      (h : ∀ name, source = some name → name ∈ candidates) :
      CarriesOut (.addColumn c candidates) (.addColumn c.column source)
  | dropColumn (c : ColumnDescription) : CarriesOut (.dropColumn c) (.dropColumn c.handle)
  | alterColumn (declared live : ColumnDescription) :
      CarriesOut (.alterColumn declared live) (.alterColumn live.handle declared.column)
  | addIndex (i : IndexDescription) : CarriesOut (.addIndex i) (.addIndex i.index)
  | dropIndex (i : IndexDescription) : CarriesOut (.dropIndex i) (.dropIndex i.handle)

namespace AlterStep

/-- The index that a step adds. -/
def addedIndex? : AlterStep → Option Index
  | .addIndex index => some index
  | _ => none

/-- The name of the index that a step drops. -/
def droppedIndex? : AlterStep → Option String
  | .dropIndex name => some name
  | _ => none

end AlterStep

namespace DiffOperation

/-- The operation alters a collection that is there. -/
def alters (op : DiffOperation) : Bool :=
  op.change ≠ .addCollection

/-- The creation of the collection as the operation has it. -/
def creation (op : DiffOperation) : CreateCollection :=
  ⟨op.collection, op.schema.columns.map ColumnDescription.column,
    op.schema.indexes.map IndexDescription.index⟩

/-- The operations on a collection. -/
def on (c : CollectionRef) (ops : List DiffOperation) : List DiffOperation :=
  ops.filter fun op => op.collection = c

/-- The declared secondary indexes over the column that the operation retypes. -/
def rebuilt (op : DiffOperation) : List Index :=
  match op.change with
  | .alterColumn declared _ => op.schema.indexesOver declared.handle
  | _ => []

end DiffOperation

/-- The steps carry out the operations, each by one of its own; the other steps build indexes again.
-/
structure CarriesOutAll (ops : List DiffOperation) (steps own : List AlterStep)
    (again : List Index) : Prop where
  /-- Every operation has its own step. -/
  each : List.Forall₂ (fun op step => AlterStep.CarriesOut op.change step) ops own
  /-- The other steps drop indexes, unless they are dropped anyway, and add them. -/
  exact : steps.Perm (own ++
    ((namesBeyond (again.map Index.name) (own.filterMap AlterStep.droppedIndex?)).map .dropIndex ++
      again.map .addIndex))
  /-- The indexes that are built again are declared, and cover a retyped column. -/
  declared : ∀ i ∈ again, ∃ op ∈ ops, i ∈ op.rebuilt
  /-- They have distinct names. -/
  nodup : (again.map Index.name).Nodup
  /-- None of them is added anyway. -/
  fresh : ∀ i ∈ again, i.name ∉ (own.filterMap AlterStep.addedIndex?).map Index.name
  /-- None is missing that is not added anyway. -/
  complete : ∀ op ∈ ops, ∀ i ∈ op.rebuilt,
    i.name ∈ (own.filterMap AlterStep.addedIndex?).map Index.name ∨ i.name ∈ again.map Index.name
  /-- No index is added before one is dropped. -/
  ordered : steps.Pairwise fun step later =>
    step.addedIndex?.isSome = true → later.droppedIndex? = none

/-! ## The steps of decisions -/

/-- The step that a decision has of its own; a creation has none. -/
def Decision.step? : Decision → Option AlterStep
  | .create _ => none
  | .addColumn column source => some (.addColumn column source)
  | .dropColumn name => some (.dropColumn name)
  | .alterColumn source column _ => some (.alterColumn source column)
  | .addIndex index => some (.addIndex index)
  | .dropIndex name => some (.dropIndex name)

/-- What two functions pick from a list is what either of them picks, if they pick nothing twice. -/
theorem perm_filterMap_or {α β : Type} {f g : α → Option β} (h : ∀ a, f a = none ∨ g a = none) :
    ∀ l : List α, (l.filterMap f ++ l.filterMap g).Perm (l.filterMap fun a => (f a).or (g a))
  | [] => .nil
  | a :: l => by
    have ih := perm_filterMap_or h l
    simp only [List.filterMap_cons]
    rcases h a with hf | hg
    · rw [hf, Option.none_or]
      cases g a with
      | none => exact ih
      | some b => exact List.perm_middle.trans (ih.cons b)
    · rw [hg, Option.or_none]
      cases f a with
      | none => exact ih
      | some b => exact ih.cons b

/-- Picking decisions kind by kind misses none that has a step, and takes none twice. -/
theorem perm_steps (ds : List Decision) :
    ((ds.filterMap Decision.dropIndex?).map AlterStep.dropIndex ++
      ds.filterMap Decision.addColumn? ++ ds.filterMap Decision.alterColumn? ++
      ds.filterMap Decision.dropColumn? ++
      (ds.filterMap Decision.addIndex?).map AlterStep.addIndex).Perm
        (ds.filterMap Decision.step?) := by
  rw [List.map_filterMap, List.map_filterMap]
  refine .trans (.append_right _ (.trans (.append_right _ (.trans (.append_right _
    (perm_filterMap_or ?_ ds)) (perm_filterMap_or ?_ ds))) (perm_filterMap_or ?_ ds)))
    ((perm_filterMap_or ?_ ds).trans (.of_eq (List.filterMap_congr fun d _ => ?_)))
  case refine_5 => cases d <;> rfl
  all_goals
    intro d
    cases d <;> first | exact .inl rfl | exact .inr rfl

section Steps

variable {ops : List DiffOperation} {ds : List Decision}

theorem own_of_admits (h : List.Forall₂ (fun op d => Admits op.schema op.change d) ops ds) :
    List.Forall₂ (fun op step => AlterStep.CarriesOut op.change step)
      (ops.filter DiffOperation.alters) (ds.filterMap Decision.step?) := by
  induction h with
  | nil => exact .nil
  | @cons op d ops' ds' hd _ ih =>
    obtain ⟨schema, change⟩ := op
    cases hd with
    | create => exact ih
    | addColumn c candidates source hsource =>
      exact .cons (.addColumn c candidates source hsource) ih
    | alterColumn declared live => exact .cons (.alterColumn declared live) ih
    | dropColumn c => exact .cons (.dropColumn c) ih
    | addIndex i => exact .cons (.addIndex i) ih
    | dropIndex i => exact .cons (.dropIndex i) ih

/-- The indexes that decisions build again are those over the columns that the operations retype. -/
theorem mem_rebuilt_of_admits {i : Index}
    (h : List.Forall₂ (fun op d => Admits op.schema op.change d) ops ds) :
    i ∈ ds.flatMap Decision.rebuilt ↔
      ∃ op ∈ ops.filter DiffOperation.alters, i ∈ op.rebuilt := by
  induction h with
  | nil => simp
  | @cons op d ops' ds' hd _ ih =>
    obtain ⟨schema, change⟩ := op
    rw [List.flatMap_cons, List.mem_append, ih]
    cases hd <;> simp [DiffOperation.alters, DiffOperation.rebuilt, Decision.rebuilt]

/-- The steps that decisions make up: what is dropped of indexes, what is changed of columns, and
what is added of indexes. -/
theorem exists_alterSteps_eq (ds : List Decision) :
    ∃ again, alterSteps ds =
        (ds.filterMap Decision.dropIndex? ++ namesBeyond (again.map Index.name)
            (ds.filterMap Decision.dropIndex?)).map .dropIndex ++
          (ds.filterMap Decision.addColumn? ++ ds.filterMap Decision.alterColumn? ++
            ds.filterMap Decision.dropColumn?) ++
          (ds.filterMap Decision.addIndex? ++ again).map .addIndex ∧
      (again.map Index.name).Nodup ∧
      (∀ i ∈ again, i ∈ ds.flatMap Decision.rebuilt ∧
        i.name ∉ (ds.filterMap Decision.addIndex?).map Index.name) ∧
      ∀ i ∈ ds.flatMap Decision.rebuilt,
        i.name ∈ (ds.filterMap Decision.addIndex?).map Index.name ∨
          i.name ∈ again.map Index.name := by
  obtain ⟨again, hplan, hagain⟩ := foldl_rebuild_eq (ds.flatMap Decision.rebuilt)
    ⟨ds.filterMap Decision.dropIndex?, ds.filterMap Decision.addIndex?⟩
  refine ⟨again, ?_, hagain⟩
  unfold alterSteps indexPlan
  rw [hplan]
  simp only [List.append_assoc]

theorem droppedIndexes_of_steps (ds : List Decision) :
    (ds.filterMap Decision.step?).filterMap AlterStep.droppedIndex? =
      ds.filterMap Decision.dropIndex? := by
  rw [List.filterMap_filterMap]
  exact List.filterMap_congr fun d _ => by cases d <;> rfl

theorem addedIndexes_of_steps (ds : List Decision) :
    (ds.filterMap Decision.step?).filterMap AlterStep.addedIndex? =
      ds.filterMap Decision.addIndex? := by
  rw [List.filterMap_filterMap]
  exact List.filterMap_congr fun d _ => by cases d <;> rfl

/-- Where no step of the front adds an index and no step of the rest drops one, no index is added
before one is dropped. -/
theorem pairwise_steps {front rest : List AlterStep}
    (hfront : ∀ step ∈ front, step.addedIndex? = none)
    (hrest : ∀ step ∈ rest, step.droppedIndex? = none) :
    (front ++ rest).Pairwise fun step later =>
      step.addedIndex?.isSome = true → later.droppedIndex? = none := by
  refine List.pairwise_append.mpr ⟨List.pairwise_of_forall_mem_list fun step hstep _ _ hadds => ?_,
    List.pairwise_of_forall_mem_list fun _ _ later hlater _ => hrest later hlater,
    fun _ _ later hlater _ => hrest later hlater⟩
  rw [hfront step hstep] at hadds
  cases hadds

/-- **The steps that decisions make up carry out the operations.** -/
theorem exists_carriesOutAll
    (h : List.Forall₂ (fun op d => Admits op.schema op.change d) ops ds) :
    ∃ own again, CarriesOutAll (ops.filter DiffOperation.alters) (alterSteps ds) own again := by
  obtain ⟨again, hsteps, hnodup, hmem, hall⟩ := exists_alterSteps_eq ds
  refine ⟨ds.filterMap Decision.step?, again, own_of_admits h, ?_, ?_, hnodup, ?_, ?_, ?_⟩
  · -- what builds indexes again moves behind the other steps
    rw [hsteps, droppedIndexes_of_steps]
    refine .trans ?_ ((perm_steps ds).append_right _)
    simp only [List.map_append, List.append_assoc]
    refine .append_left _ ?_
    simp only [← List.append_assoc]
    refine .append_right _ ?_
    simp only [List.append_assoc]
    exact List.perm_append_comm.trans (.of_eq (by simp only [List.append_assoc]))
  · exact fun i hi => (mem_rebuilt_of_admits h).mp (hmem i hi).1
  · rw [addedIndexes_of_steps]
    exact fun i hi => (hmem i hi).2
  · rw [addedIndexes_of_steps]
    exact fun op hop i hi => hall i ((mem_rebuilt_of_admits h).mpr ⟨op, hop, hi⟩)
  · rw [hsteps]
    refine pairwise_steps (fun step hstep => ?_) fun step hstep => ?_
    · simp only [List.mem_append, List.mem_map, List.mem_filterMap] at hstep
      rcases hstep with ⟨name, -, rfl⟩ | (⟨d, -, hd⟩ | ⟨d, -, hd⟩) | ⟨d, -, hd⟩
      · rfl
      all_goals
        cases d <;> cases hd
        rfl
    · obtain ⟨i, -, rfl⟩ := List.mem_map.mp hstep
      rfl

end Steps

/-! ## Batches -/

/-- The queries that decisions about any collections make up for one of them. -/
def queriesFor (ds : List (CollectionRef × Decision)) (c : CollectionRef) : List Query :=
  (((decisionsOn c ds).filterMap Decision.creation?).getLast?).toList.map .createCollection ++
    alteration c (alterSteps (decisionsOn c ds))

/-- Decisions are grouped iff every step of an alteration is well formed. -/
theorem groupQueries_eq_ok_iff {ds : List (CollectionRef × Decision)} :
    ∀ {cs : List CollectionRef} {queries : List Query},
      groupQueries ds cs = .ok queries ↔
        (∀ c ∈ cs, ∀ step ∈ alterSteps (decisionsOn c ds), step.check = .ok ()) ∧
          cs.flatMap (queriesFor ds) = queries
  | [], queries => by simp [groupQueries]
  | c :: cs, queries => by
    simp only [groupQueries, bind_eq_ok_iff, queriesOf_eq_ok_iff, groupQueries_eq_ok_iff,
      List.forall_mem_cons]
    constructor
    · rintro ⟨_, ⟨hc, rfl⟩, _, ⟨hcs, rfl⟩, h⟩
      exact ⟨⟨hc, hcs⟩, Except.ok.inj h⟩
    · rintro ⟨⟨hc, hcs⟩, rfl⟩
      exact ⟨_, ⟨hc, rfl⟩, _, ⟨hcs, rfl⟩, rfl⟩

theorem groupQueries_eq {ds : List (CollectionRef × Decision)} {cs : List CollectionRef}
    {queries : List Query} (h : groupQueries ds cs = .ok queries) :
    queries = cs.flatMap (queriesFor ds) :=
  (groupQueries_eq_ok_iff.mp h).2.symm

/-- **No operation is lost**: the queries carry out the operations. -/
structure Batched (ops : List DiffOperation) (queries : List Query) : Prop where
  /-- There is one query for every collection of the operations, in the order of their first
  operations. -/
  collections : queries.map Query.collection? =
    (ops.map DiffOperation.collection).eraseDups.map some
  /-- Every creation is carried out as it was planned. -/
  creates : ∀ op ∈ ops, op.alters = false → .createCollection op.creation ∈ queries
  /-- The alterations of a collection are carried out one by one. -/
  alters : ∀ op ∈ ops, op.alters = true → ∃ steps own again,
    .alterCollection ⟨op.collection, steps⟩ ∈ queries ∧
      CarriesOutAll ((DiffOperation.on op.collection ops).filter DiffOperation.alters) steps own
        again

theorem nodup_eraseDups {α : Type} [BEq α] [LawfulBEq α] : ∀ l : List α, l.eraseDups.Nodup
  | [] => by simp
  | a :: l => by
    rw [List.eraseDups_cons, List.nodup_cons, List.mem_eraseDups]
    exact ⟨by simp, nodup_eraseDups _⟩
termination_by l => l.length
decreasing_by exact Nat.lt_succ_of_le (List.length_filter_le _ l)

/-- Every collection of decisions is listed once. -/
theorem nodup_collectionsOf (ds : List (CollectionRef × Decision)) : (collectionsOf ds).Nodup :=
  nodup_eraseDups _

/-- Of what distinct keys stand for, a key has its own. -/
theorem filter_flatMap_of_nodup {α β : Type} [DecidableEq α] {key : β → Option α} {f : α → List β}
    (hkey : ∀ a, ∀ b ∈ f a, key b = some a) (c : α) : ∀ {l : List α}, l.Nodup →
      (l.flatMap f).filter (fun b => key b = some c) = if c ∈ l then f c else []
  | [], _ => rfl
  | a :: l, h => by
    obtain ⟨hfresh, hnodup⟩ := List.nodup_cons.mp h
    rw [List.flatMap_cons, List.filter_append, filter_flatMap_of_nodup hkey c hnodup]
    by_cases ha : a = c
    · subst ha
      rw [List.filter_eq_self.mpr fun b hb => decide_eq_true (hkey a b hb), if_neg hfresh,
        List.append_nil, if_pos List.mem_cons_self]
    · have hnone : (f a).filter (fun b => key b = some c) = [] :=
        List.filter_eq_nil_iff.mpr fun b hb => by simpa [hkey a b hb] using ha
      rw [hnone, List.nil_append]
      simp only [List.mem_cons, Ne.symm ha, false_or]

/-- The operations agree on what is created: an operation on a collection that another one creates
creates it in the same way. -/
def CreatesOnce (ops : List DiffOperation) : Prop :=
  ∀ op ∈ ops, op.alters = false → ∀ other ∈ ops, other.collection = op.collection →
    other.alters = false ∧ other.creation = op.creation

instance (ops : List DiffOperation) : Decidable (CreatesOnce ops) :=
  inferInstanceAs (Decidable (∀ op ∈ ops, op.alters = false → ∀ other ∈ ops,
    other.collection = op.collection → other.alters = false ∧ other.creation = op.creation))

/-- A batch that loses nothing creates every collection once. -/
theorem Batched.createsOnce {ops : List DiffOperation} {queries : List Query}
    (h : Batched ops queries) : CreatesOnce ops := by
  intro op hop hcreates other hother hsame
  have hnodup : (queries.map Query.collection?).Nodup := by
    rw [h.collections]
    exact (nodup_eraseDups _).map (Option.some_injective _)
  have hquery := h.creates op hop hcreates
  cases halters : other.alters with
  | true =>
    obtain ⟨steps, own, again, hother, -⟩ := h.alters other hother halters
    have := List.inj_on_of_nodup_map hnodup hquery hother (congrArg some hsame.symm)
    cases this
  | false =>
    have := List.inj_on_of_nodup_map hnodup hquery (h.creates other hother halters)
      (congrArg some hsame.symm)
    exact ⟨rfl, (Query.createCollection.inj this).symm⟩

section Agreeing

variable {ops : List DiffOperation} {ds : List (CollectionRef × Decision)}

/-- Decisions are about the collections of their operations. -/
theorem collectionsOf_eq
    (h : List.Forall₂ (fun op d => d.1 = op.collection ∧ Admits op.schema op.change d.2) ops ds) :
    collectionsOf ds = (ops.map DiffOperation.collection).eraseDups := by
  have hmap : ds.map Prod.fst = ops.map DiffOperation.collection := by
    induction h with
    | nil => rfl
    | cons hd _ ih => rw [List.map_cons, List.map_cons, hd.1, ih]
  rw [collectionsOf, hmap]

/-- The decisions about one collection are those about what is on it. -/
theorem forall₂_decisionsOn {α : Type} {key : α → CollectionRef} {P : α → Decision → Prop}
    {l : List α} (c : CollectionRef)
    (h : List.Forall₂ (fun a d => d.1 = key a ∧ P a d.2) l ds) :
    List.Forall₂ P (l.filter fun a => key a = c) (decisionsOn c ds) := by
  refine List.forall₂_map_right_iff.mpr ((List.rel_filter ?_ h).imp fun _ _ hd => hd.2)
  intro a d hd
  show decide (key a = c) = true ↔ decide (d.1 = c) = true
  rw [hd.1]

theorem decisionsOn_admits (c : CollectionRef)
    (h : List.Forall₂ (fun op d => d.1 = op.collection ∧ Admits op.schema op.change d.2) ops ds) :
    List.Forall₂ (fun op d => Admits op.schema op.change d) (DiffOperation.on c ops)
      (decisionsOn c ds) :=
  forall₂_decisionsOn (P := fun (op : DiffOperation) d => Admits op.schema op.change d) c h

/-- Decisions create what the operations create. -/
theorem mem_creations_of_admits {ds : List Decision} {q : CreateCollection}
    (h : List.Forall₂ (fun op d => Admits op.schema op.change d) ops ds) :
    q ∈ ds.filterMap Decision.creation? ↔ ∃ op ∈ ops, op.alters = false ∧ q = op.creation := by
  induction h with
  | nil => simp
  | @cons op d ops' ds' hd _ ih =>
    obtain ⟨schema, change⟩ := op
    rw [List.filterMap_cons]
    cases hd with
    | @create q' hq =>
      obtain ⟨-, rfl⟩ := Description.toCreate_eq_ok hq
      simp [Decision.creation?, ih, DiffOperation.alters, DiffOperation.creation,
        DiffOperation.collection]
    | _ => simpa [Decision.creation?, DiffOperation.alters] using ih

/-- The queries for a collection are about it. -/
theorem collection_of_mem_queriesFor {c : CollectionRef} {q : Query}
    (h : List.Forall₂ (fun op d => d.1 = op.collection ∧ Admits op.schema op.change d.2) ops ds)
    (hq : q ∈ queriesFor ds c) : q.collection? = some c := by
  rcases List.mem_append.mp hq with hq | hq
  · obtain ⟨creation, hlast, rfl⟩ := List.mem_map.mp hq
    obtain ⟨op, hop, -, rfl⟩ := (mem_creations_of_admits (decisionsOn_admits c h)).mp
      (List.mem_of_getLast? (Option.mem_toList.mp hlast))
    exact congrArg some (of_decide_eq_true (List.mem_filter.mp hop).2)
  · rw [alteration] at hq
    split_ifs at hq
    · cases hq
    · rw [List.mem_singleton.mp hq]
      rfl

/-- A collection is among those of the decisions iff a decision is about it. -/
theorem mem_collectionsOf {c : CollectionRef} : c ∈ collectionsOf ds ↔ decisionsOn c ds ≠ [] := by
  simp [collectionsOf, decisionsOn, List.mem_eraseDups]

/-- The queries of a batch about one collection. -/
theorem filter_eq_queriesFor {queries : List Query}
    (h : List.Forall₂ (fun op d => d.1 = op.collection ∧ Admits op.schema op.change d.2) ops ds)
    (hqueries : groupQueries ds (collectionsOf ds) = .ok queries) (c : CollectionRef) :
    (queries.filter fun q => q.collection? = some c) = queriesFor ds c := by
  rw [groupQueries_eq hqueries, filter_flatMap_of_nodup (fun c' q hq =>
    collection_of_mem_queriesFor h hq) c (nodup_collectionsOf ds)]
  split_ifs with hc
  · rfl
  · have hnone : decisionsOn c ds = [] := by simpa using mt mem_collectionsOf.mpr hc
    rw [queriesFor, hnone]
    rfl

/-- There are no steps iff there is nothing to carry out. -/
theorem CarriesOutAll.steps_eq_nil_iff {steps own : List AlterStep} {again : List Index}
    (h : CarriesOutAll ops steps own again) : steps = [] ↔ ops = [] := by
  constructor
  · rintro rfl
    have hown : own = [] := (List.append_eq_nil_iff.mp (List.nil_perm.mp h.exact)).1
    have heach := h.each
    rw [hown] at heach
    exact List.forall₂_nil_right_iff.mp heach
  · rintro rfl
    have hown : own = [] := List.forall₂_nil_left_iff.mp h.each
    have hagain : again = [] := List.eq_nil_iff_forall_not_mem.mpr fun i hi => by
      obtain ⟨op, hop, -⟩ := h.declared i hi
      exact List.not_mem_nil hop
    have hexact := h.exact
    rw [hown, hagain] at hexact
    exact List.perm_nil.mp hexact

variable (hagree : CreatesOnce ops)
  (h : List.Forall₂ (fun op d => d.1 = op.collection ∧ Admits op.schema op.change d.2) ops ds)
  {op : DiffOperation} (hop : op ∈ ops)

include hagree h hop

/-- A collection that is created gets no other query. -/
theorem queriesFor_of_creates (hcreates : op.alters = false) :
    queriesFor ds op.collection = [.createCollection op.creation] := by
  have hadmits := decisionsOn_admits op.collection h
  have hother : ∀ other ∈ DiffOperation.on op.collection ops,
      other.alters = false ∧ other.creation = op.creation := by
    intro other hother
    obtain ⟨hmem, hsame⟩ := List.mem_filter.mp hother
    exact hagree op hop hcreates other hmem (of_decide_eq_true hsame)
  have hon : op ∈ DiffOperation.on op.collection ops :=
    List.mem_filter.mpr ⟨hop, decide_eq_true rfl⟩
  have hlast : ((decisionsOn op.collection ds).filterMap Decision.creation?).getLast? =
      some op.creation := by
    have hne := List.ne_nil_of_mem ((mem_creations_of_admits hadmits).mpr ⟨op, hon, hcreates, rfl⟩)
    obtain ⟨other, hmem, -, hq⟩ :=
      (mem_creations_of_admits hadmits).mp (List.getLast_mem hne)
    rw [List.getLast?_eq_getLast_of_ne_nil hne, hq, (hother other hmem).2]
  have hsteps : alterSteps (decisionsOn op.collection ds) = [] := by
    obtain ⟨own, again, hall⟩ := exists_carriesOutAll hadmits
    refine hall.steps_eq_nil_iff.mpr (List.filter_eq_nil_iff.mpr fun other hmem => ?_)
    rw [(hother other hmem).1]
    exact Bool.false_ne_true
  rw [queriesFor, hlast, hsteps]
  rfl

/-- A collection that is altered gets no other query. -/
theorem queriesFor_of_alters (halters : op.alters = true) :
    queriesFor ds op.collection =
      [.alterCollection ⟨op.collection, alterSteps (decisionsOn op.collection ds)⟩] := by
  have hadmits := decisionsOn_admits op.collection h
  have hon : op ∈ DiffOperation.on op.collection ops :=
    List.mem_filter.mpr ⟨hop, decide_eq_true rfl⟩
  have hnone : (decisionsOn op.collection ds).filterMap Decision.creation? = [] := by
    refine List.eq_nil_iff_forall_not_mem.mpr fun q hq => ?_
    obtain ⟨other, hmem, hcreates, -⟩ := (mem_creations_of_admits hadmits).mp hq
    obtain ⟨hother, hsame⟩ := List.mem_filter.mp hmem
    have := (hagree other hother hcreates op hop (of_decide_eq_true hsame).symm).1
    rw [halters] at this
    cases this
  have hsteps : alterSteps (decisionsOn op.collection ds) ≠ [] := by
    obtain ⟨own, again, hall⟩ := exists_carriesOutAll hadmits
    exact fun hnil => List.ne_nil_of_mem (List.mem_filter.mpr ⟨hon, halters⟩)
      (hall.steps_eq_nil_iff.mp hnil)
  rw [queriesFor, hnone, alteration, if_neg (by simpa using hsteps)]
  rfl

end Agreeing

/-- Decisions about operations that agree on what is created make up a batch that loses nothing. -/
theorem batched_of_createsOnce {ops : List DiffOperation} {ds : List (CollectionRef × Decision)}
    {queries : List Query} (hagree : CreatesOnce ops)
    (h : List.Forall₂ (fun op d => d.1 = op.collection ∧ Admits op.schema op.change d.2) ops ds)
    (hqueries : groupQueries ds (collectionsOf ds) = .ok queries) : Batched ops queries := by
  have heq := groupQueries_eq hqueries
  rw [collectionsOf_eq h] at heq
  have hmem : ∀ op ∈ ops, ∀ q ∈ queriesFor ds op.collection, q ∈ queries := by
    intro op hop q hq
    rw [heq]
    exact List.mem_flatMap.mpr
      ⟨op.collection, List.mem_eraseDups.mpr (List.mem_map_of_mem hop), hq⟩
  refine ⟨?_, fun op hop hcreates => ?_, fun op hop halters => ?_⟩
  · have hone : ∀ c ∈ (ops.map DiffOperation.collection).eraseDups,
        (queriesFor ds c).map Query.collection? = [some c] := by
      intro c hc
      obtain ⟨op, hop, rfl⟩ := List.mem_map.mp (List.mem_eraseDups.mp hc)
      cases halters : op.alters with
      | false =>
        rw [queriesFor_of_creates hagree h hop halters]
        rfl
      | true =>
        rw [queriesFor_of_alters hagree h hop halters]
        rfl
    rw [heq, List.map_flatMap, List.flatMap_congr hone, ← List.map_eq_flatMap]
  · refine hmem op hop _ ?_
    rw [queriesFor_of_creates hagree h hop hcreates]
    exact List.mem_singleton_self _
  · obtain ⟨own, again, hall⟩ := exists_carriesOutAll (decisionsOn_admits op.collection h)
    refine ⟨_, own, again, hmem op hop _ ?_, hall⟩
    rw [queriesFor_of_alters hagree h hop halters]
    exact List.mem_singleton_self _

/-- The queries that decisions make up, if all of them are made. -/
def batchOf (result : Except MigrationError (List (CollectionRef × Decision))) :
    Except MigrationError (List Query) :=
  result >>= fun ds => (groupQueries ds (collectionsOf ds)).mapError fun e =>
    .query (.construction e)

namespace Migrator

open SchemaMigration.Action

/-- A batch ends where deciding ends. -/
theorem outcome_batch {σ κ : Type} (m : Migrator σ κ) (ops : List DiffOperation)
    (s : Situation σ κ) :
    (m.batch ops).outcome s =
      (batchOf ((m.decideAll ops).outcome s).1, ((m.decideAll ops).outcome s).2) := by
  unfold batch
  rw [outcome_bind]
  obtain ⟨result, t⟩ := (m.decideAll ops).outcome s
  cases result with
  | error err => rfl
  | ok ds =>
    show (liftMisuse (groupQueries ds (collectionsOf ds))).outcome t =
      ((groupQueries ds (collectionsOf ds)).mapError _, t)
    cases groupQueries ds (collectionsOf ds) <;> rfl

end Migrator

/-! ## Plans -/

/-- A diff that creates the collection does nothing else. -/
theorem Description.diff_of_creates {declared : Description} {live : Option Description}
    {compare : ColumnType → ColumnType → Compatibility} {op : DiffOperation}
    (hop : op ∈ declared.diff live compare) (hcreates : op.alters = false) :
    declared.diff live compare = [op] := by
  obtain ⟨change, hchange, rfl⟩ := List.mem_map.mp hop
  obtain rfl : change = .addCollection := by simpa [DiffOperation.alters] using hcreates
  cases live with
  | none => rfl
  | some live =>
    rw [changes_some] at hchange
    simp at hchange

namespace Migrator

open SchemaMigration.Action

variable {σ κ : Type} {m : Migrator σ κ} {s t : Situation σ κ} {ops : List DiffOperation}

theorem planCollection_ok {locales : List String} {c : CollectionSchema}
    (h : (m.planCollection locales c).outcome s = (.ok ops, t)) :
    ∃ declared live, Description.ofSchema c locales = .ok declared ∧
      ops = declared.diff live m.backend.dialect.compareTypes := by
  obtain ⟨declared, u, hdeclared, h⟩ := outcome_bind_eq_ok_iff.mp h
  obtain ⟨live, v, -, h⟩ := outcome_bind_eq_ok_iff.mp h
  cases h
  exact ⟨declared, live, mapError_eq_ok_iff.mp (outcome_lift_eq_ok_iff.mp hdeclared).1, rfl⟩

/-- A plan is about the declared collections, and if each is declared once, an operation that
creates a collection is the only one on it. -/
theorem planAll_creates {locales : List String} : ∀ {cs : List CollectionSchema}
    {s t : Situation σ κ} {ops : List DiffOperation},
    (m.planAll locales cs).outcome s = (.ok ops, t) →
      (∀ op ∈ ops, op.collection ∈ cs.map CollectionSchema.collection) ∧
        ((cs.map CollectionSchema.collection).Nodup → ∀ op ∈ ops, op.alters = false →
          ∀ other ∈ ops, other.collection = op.collection → other = op)
  | [], _, _, _, h => by
    cases h
    simp
  | c :: cs, _, _, _, h => by
    obtain ⟨first, u, hfirst, h⟩ := outcome_bind_eq_ok_iff.mp h
    obtain ⟨rest, v, hrest, h⟩ := outcome_bind_eq_ok_iff.mp h
    cases h
    obtain ⟨declared, live, hdeclared, rfl⟩ := planCollection_ok hfirst
    obtain ⟨hmem, honce⟩ := planAll_creates hrest
    have hfirst : ∀ op ∈ declared.diff live m.backend.dialect.compareTypes,
        op.collection = c.collection := by
      intro op hop
      obtain ⟨change, -, rfl⟩ := List.mem_map.mp hop
      exact (Description.ofSchema_ok hdeclared).2.1
    rw [List.map_cons]
    refine ⟨fun op hop => ?_, fun hnodup op hop hcreates other hother hsame => ?_⟩
    · rcases List.mem_append.mp hop with hop | hop
      · rw [hfirst op hop]
        exact List.mem_cons_self
      · exact List.mem_cons_of_mem _ (hmem op hop)
    · obtain ⟨hfresh, hnodup⟩ := List.nodup_cons.mp hnodup
      rcases List.mem_append.mp hop with hop | hop <;>
        rcases List.mem_append.mp hother with hother | hother
      · rw [Description.diff_of_creates hop hcreates] at hother
        exact List.mem_singleton.mp hother
      · exact absurd (hfirst op hop ▸ hsame ▸ hmem other hother) hfresh
      · exact absurd (hfirst other hother ▸ hsame.symm ▸ hmem op hop) hfresh
      · exact honce hnodup op hop hcreates other hother hsame

theorem plan_createsOnce {schema : LogicalSchema} (h : (m.plan schema).outcome s = (.ok ops, t))
    (hnodup : (schema.collections.map CollectionSchema.collection).Nodup) : CreatesOnce ops := by
  intro op hop hcreates other hother hsame
  rw [(planAll_creates h).2 hnodup op hop hcreates other hother hsame]
  exact ⟨hcreates, rfl⟩

/-- **A batch loses no operation** iff its operations agree on what is created: then there is one
query for every collection, in the order of their first operations, which creates it as it was
planned or alters it by a step for every operation, and by what builds indexes again. So it is with
the plan of a schema that declares every collection once. -/
theorem batched_iff {queries : List Query} (h : (m.batch ops).outcome s = (.ok queries, t)) :
    (Batched ops queries ↔ CreatesOnce ops) ∧
      ∀ schema u, (m.plan schema).outcome u = (.ok ops, s) →
        (schema.collections.map CollectionSchema.collection).Nodup → Batched ops queries := by
  obtain ⟨ds, u, hds, h⟩ := outcome_bind_eq_ok_iff.mp h
  have hqueries : groupQueries ds (collectionsOf ds) = .ok queries :=
    mapError_eq_ok_iff.mp (outcome_lift_eq_ok_iff.mp h).1
  have hbatched : CreatesOnce ops → Batched ops queries := fun hagree =>
    batched_of_createsOnce hagree (decideAll_ok hds) hqueries
  exact ⟨⟨Batched.createsOnce, hbatched⟩,
    fun schema v hplan hnodup => hbatched (plan_createsOnce hplan hnodup)⟩

end Migrator

/-! ## An example -/

namespace Posts

/-- Posts that are declared twice, in different ways. -/
def twice : LogicalSchema :=
  ⟨[⟨collection, [.column "id" .int64], []⟩, ⟨collection, [.column "slug" .text], []⟩], []⟩

/-- A migrator of an empty backend. -/
def opening : Migrator Unit Unit :=
  ⟨(Snapshot.mk .sqlite [] []).backend, .defaults, none, false⟩

/-- The creation of posts with these columns and nothing else. -/
def creating (columns : List ColumnDescription) : DiffOperation :=
  ⟨⟨collection, columns, []⟩, .addCollection⟩

/-- The operations that posts which are declared twice need. -/
def openings : List DiffOperation :=
  [creating [⟨"id", "id", none, .plain "id" .int64⟩],
    creating [⟨"slug", "slug", none, .plain "slug" .text⟩]]

end Posts

/-- The batch for the older posts loses none of the operations. -/
theorem Migrator.batched_of_posts :
    Batched (Posts.declared.diff (some Posts.found) ColumnType.compareTypes)
      [.alterCollection ⟨Posts.collection, Posts.steps⟩] :=
  (Migrator.batched_iff Posts.batch_found).1.mpr (by decide +kernel)

/-- Of two creations of one collection the first one is lost. -/
theorem Migrator.batch_of_openings : ∃ u, (Posts.opening.plan Posts.twice).outcome ⟨(), (), []⟩ =
      (.ok Posts.openings, u) ∧
    (Posts.opening.batch Posts.openings).outcome u =
      (.ok [.createCollection ⟨Posts.collection, [.plain "slug" .text], []⟩], u) ∧
    ¬ Batched Posts.openings
      [.createCollection ⟨Posts.collection, [.plain "slug" .text], []⟩] := by
  refine ⟨_, rfl, rfl, fun h => ?_⟩
  have hfirst := h.creates _ List.mem_cons_self rfl
  have hquery := Query.createCollection.inj (List.mem_singleton.mp hfirst)
  exact absurd (congrArg CreateCollection.columns hquery) (by decide)

end SchemaMigration
