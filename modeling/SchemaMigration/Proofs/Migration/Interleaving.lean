import SchemaMigration.Proofs.Migration.Alike
import SchemaMigration.Proofs.Migration.Grouping

/-!
# Interleaving does not matter

A plan lists the operations of one collection after those of another, but a batch takes them in any
order. What it makes of a collection depends on the operations on that collection and on the answers
to their prompts, so it is the same however the operations on other collections come in between, if
the chooser does not look back.

About `batch` and `group_for`.

* `Chooser.Memoryless`: an answer depends on the prompt and its choices alone.
* `decideAll_eq_ok_iff`: then every operation is decided on its own.
* **`batch_interleaved`**: lists with the same operations on every collection are batched or refused
  together, and every collection gets the same queries.
-/

namespace SchemaMigration

/-- Whatever was answered before, the answer depends on the prompt and its choices alone. -/
def Chooser.Memoryless {κ : Type} (c : Chooser κ) : Prop :=
  ∀ prompt choices k k', (c.choose prompt choices k).1 = (c.choose prompt choices k').1

theorem Chooser.memoryless_defaults : Chooser.defaults.Memoryless := fun _ _ _ _ => rfl

/-- The lists have the same operations on every collection, in the same order. -/
def Interleaved (ops ops' : List DiffOperation) : Prop :=
  ∀ c, DiffOperation.on c ops = DiffOperation.on c ops'

/-- What is in one of two interleaved lists is in the other. -/
theorem Interleaved.mem {ops ops' : List DiffOperation} (h : Interleaved ops ops')
    {op : DiffOperation} (hop : op ∈ ops') : op ∈ ops := by
  have hon : op ∈ DiffOperation.on op.collection ops' :=
    List.mem_filter.mpr ⟨hop, decide_eq_true rfl⟩
  rw [← h] at hon
  exact (List.mem_filter.mp hon).1

namespace Migrator

open SchemaMigration.Action

variable {σ κ : Type} {m : Migrator σ κ} {ops ops' : List DiffOperation}

/-! ## Decisions without a memory -/

/-- What comes of deciding about an operation in a situation. -/
def verdict (m : Migrator σ κ) (s : Situation σ κ) (op : DiffOperation) :
    Except MigrationError Decision :=
  ((m.decide op).outcome s).1

/-- Every operation is decided as it would be in the situation. -/
def Settled (m : Migrator σ κ) (s : Situation σ κ) (ops : List DiffOperation)
    (ds : List (CollectionRef × Decision)) : Prop :=
  List.Forall₂ (fun op d => d.1 = op.collection ∧ m.verdict s op = .ok d.2) ops ds

/-- A decision about an operation is one that its change leads to. -/
theorem admits_of_verdict {s : Situation σ κ} {op : DiffOperation} {d : Decision}
    (h : m.verdict s op = .ok d) : Admits op.schema op.change d :=
  decide_ok (t := ((m.decide op).outcome s).2) (Prod.ext h rfl)

theorem Settled.admits {s : Situation σ κ} {ds : List (CollectionRef × Decision)}
    (h : m.Settled s ops ds) :
    List.Forall₂ (fun op d => d.1 = op.collection ∧ Admits op.schema op.change d.2) ops ds :=
  h.imp fun _ _ hd => ⟨hd.1, admits_of_verdict hd.2⟩

/-- Decisions about one collection depend on the operations on it alone. -/
theorem Settled.decisionsOn_eq {s : Situation σ κ} {ds ds' : List (CollectionRef × Decision)}
    (h : m.Settled s ops ds) (h' : m.Settled s ops' ds') (hops : Interleaved ops ops')
    (c : CollectionRef) : decisionsOn c ds = decisionsOn c ds' := by
  have hon : List.Forall₂ (fun op d => m.verdict s op = .ok d) (DiffOperation.on c ops)
      (decisionsOn c ds) := forall₂_decisionsOn c h
  have hon' : List.Forall₂ (fun op d => m.verdict s op = .ok d) (DiffOperation.on c ops')
      (decisionsOn c ds') := forall₂_decisionsOn c h'
  rw [hops c] at hon
  have hunique : Relator.RightUnique fun op d => m.verdict s op = .ok d :=
    fun _ _ _ hd hd' => Except.ok.inj (hd.symm.trans hd')
  exact List.right_unique_forall₂' hunique hon hon'

/-- Operations are decided together iff each of them is. -/
theorem exists_settled_iff {s : Situation σ κ} : ∀ {ops : List DiffOperation},
    (∃ ds, m.Settled s ops ds) ↔ ∀ op ∈ ops, ∃ d, m.verdict s op = .ok d
  | [] => ⟨fun _ _ hop => absurd hop List.not_mem_nil, fun _ => ⟨[], .nil⟩⟩
  | op :: r => by
    rw [List.forall_mem_cons, ← exists_settled_iff]
    constructor
    · rintro ⟨ds, h⟩
      obtain ⟨d, rest, hd, hrest, rfl⟩ := List.forall₂_cons_left_iff.mp h
      exact ⟨⟨d.2, hd.2⟩, rest, hrest⟩
    · rintro ⟨⟨d, hd⟩, rest, hrest⟩
      exact ⟨(op.collection, d) :: rest, .cons ⟨rfl, hd⟩ hrest⟩

section Memoryless

variable (hc : m.chooser.Memoryless) (s : Situation σ κ)

include hc

/-- A decision does not depend on what was decided before. -/
theorem verdict_eq (t : Situation σ κ) (op : DiffOperation) : m.verdict s op = m.verdict t op :=
  (alike_decide (R := fun _ _ => True)
    (fun prompt choices s t _ => ⟨hc prompt choices s.chooser t.chooser, trivial⟩) op s t trivial).1

/-- **Every operation is decided on its own.** -/
theorem decideAll_eq_ok_iff : ∀ {ops : List DiffOperation} {ds : List (CollectionRef × Decision)}
    {t : Situation σ κ}, (∃ u, (m.decideAll ops).outcome t = (.ok ds, u)) ↔ m.Settled s ops ds
  | [], ds, t => by
    constructor
    · rintro ⟨u, h⟩
      cases h
      exact .nil
    · intro h
      cases h
      exact ⟨t, rfl⟩
  | op :: r, ds, t => by
    constructor
    · rintro ⟨u, h⟩
      obtain ⟨d, v, hd, h⟩ := outcome_bind_eq_ok_iff.mp h
      obtain ⟨rest, w, hrest, h⟩ := outcome_bind_eq_ok_iff.mp h
      cases h
      exact .cons ⟨rfl, (verdict_eq hc s t op).trans (congrArg Prod.fst hd)⟩
        (decideAll_eq_ok_iff.mp ⟨_, hrest⟩)
    · intro h
      obtain ⟨⟨c, d⟩, rest, ⟨rfl, hd⟩, hrest, rfl⟩ := List.forall₂_cons_left_iff.mp h
      have hdecide : (m.decide op).outcome t = (.ok d, ((m.decide op).outcome t).2) :=
        Prod.ext ((verdict_eq hc t s op).trans hd) rfl
      obtain ⟨u, hrest⟩ := decideAll_eq_ok_iff.mpr hrest
      exact ⟨u, outcome_bind_eq_ok_iff.mpr
        ⟨d, _, hdecide, outcome_bind_eq_ok_iff.mpr ⟨rest, u, hrest, rfl⟩⟩⟩

/-- A batch is what the decisions about its operations make up. -/
theorem batch_eq_ok_iff {t : Situation σ κ} {queries : List Query} :
    ((m.batch ops).outcome t).1 = .ok queries ↔
      ∃ ds, m.Settled s ops ds ∧ groupQueries ds (collectionsOf ds) = .ok queries := by
  rw [outcome_batch]
  simp only [batchOf, bind_eq_ok_iff, mapError_eq_ok_iff, fst_outcome_eq_ok_iff,
    decideAll_eq_ok_iff hc s]

end Memoryless

/-! ## Batches of interleaved lists -/

/-- What is batched for a list is batched for every list that is interleaved with it. -/
theorem batch_of_interleaved (hc : m.chooser.Memoryless) (hops : Interleaved ops ops')
    {s : Situation σ κ} (s' : Situation σ κ) {queries : List Query}
    (h : ((m.batch ops).outcome s).1 = .ok queries) :
    ∃ queries', ((m.batch ops').outcome s').1 = .ok queries' ∧ queries.Perm queries' ∧
      ∀ c, (queries.filter fun q => q.collection? = some c) =
        queries'.filter fun q => q.collection? = some c := by
  obtain ⟨ds, hds, hqueries⟩ := (batch_eq_ok_iff hc s).mp h
  obtain ⟨ds', hds'⟩ : ∃ ds', m.Settled s ops' ds' :=
    exists_settled_iff.mpr fun op hop => exists_settled_iff.mp ⟨ds, hds⟩ op (hops.mem hop)
  have hon : ∀ c, decisionsOn c ds = decisionsOn c ds' := hds.decisionsOn_eq hds' hops
  have hmem : ∀ c, c ∈ collectionsOf ds ↔ c ∈ collectionsOf ds' := fun c => by
    rw [mem_collectionsOf, mem_collectionsOf, hon]
  have hfor : queriesFor ds = queriesFor ds' := funext fun c => by
    unfold queriesFor
    rw [hon]
  obtain ⟨hsteps, hqueries'⟩ := groupQueries_eq_ok_iff.mp hqueries
  have hgroup : groupQueries ds' (collectionsOf ds') =
      .ok ((collectionsOf ds').flatMap (queriesFor ds')) :=
    groupQueries_eq_ok_iff.mpr ⟨fun c hmemc => by
      rw [← hon]
      exact hsteps c ((hmem c).mpr hmemc), rfl⟩
  refine ⟨_, (batch_eq_ok_iff hc s).mpr ⟨ds', hds', hgroup⟩, ?_, fun c => ?_⟩
  · rw [← hqueries', hfor]
    exact ((List.perm_ext_iff_of_nodup (nodup_collectionsOf ds) (nodup_collectionsOf ds')).mpr
      hmem).flatMap_right _
  · rw [filter_eq_queriesFor hds.admits hqueries, filter_eq_queriesFor hds'.admits hgroup, hfor]

/-- **Interleaving does not matter.** Let two lists have the same operations on every collection. If
the chooser is memoryless, a batch of one is made iff a batch of the other is. The two have the same
queries, and those about a collection are in the same order. -/
theorem batch_interleaved (hc : m.chooser.Memoryless) (hops : Interleaved ops ops')
    (s s' : Situation σ κ) :
    ((∃ queries, ((m.batch ops).outcome s).1 = .ok queries) ↔
        ∃ queries', ((m.batch ops').outcome s').1 = .ok queries') ∧
      ∀ queries queries', ((m.batch ops).outcome s).1 = .ok queries →
        ((m.batch ops').outcome s').1 = .ok queries' → queries.Perm queries' ∧
          ∀ c, (queries.filter fun q => q.collection? = some c) =
            queries'.filter fun q => q.collection? = some c := by
  refine ⟨⟨?_, ?_⟩, fun queries queries' h h' => ?_⟩
  · rintro ⟨queries, h⟩
    obtain ⟨queries', h', -⟩ := batch_of_interleaved hc hops s' h
    exact ⟨queries', h'⟩
  · rintro ⟨queries', h'⟩
    obtain ⟨queries, h, -⟩ := batch_of_interleaved hc (fun c => (hops c).symm) s h'
    exact ⟨queries, h⟩
  · obtain ⟨made, hmade, hsame⟩ := batch_of_interleaved hc hops s' h
    rw [h'] at hmade
    cases hmade
    exact hsame

end Migrator

/-! ## An example -/

namespace Posts

/-- Notes beside the posts. -/
def notes : Description := ⟨⟨none, "note", scope_valid, rfl⟩, [], []⟩

/-- The operation that drops a column of texts. -/
def losing (d : Description) (name : String) : DiffOperation :=
  ⟨d, .dropColumn ⟨name, name, none, .plain name .text⟩⟩

/-- The operation that adds a column of texts. -/
def gaining (d : Description) (name : String) (candidates : List String) : DiffOperation :=
  ⟨d, .addColumn ⟨name, name, none, .plain name .text⟩ candidates⟩

/-- Operations on the posts, and then on the notes. -/
def apart : List DiffOperation :=
  [losing declared "legacy", gaining declared "slug" ["title__en"], losing notes "mark",
    gaining notes "body" []]

/-- The same operations, in turns. -/
def mixed : List DiffOperation :=
  [losing notes "mark", losing declared "legacy", gaining notes "body" [],
    gaining declared "slug" ["title__en"]]

/-- The alteration of the posts or the notes. -/
def exchange (d : Description) (added dropped : String) : Query :=
  .alterCollection ⟨d.collection, [.addColumn (.plain added .text) none, .dropColumn dropped]⟩

theorem interleaved : Interleaved apart mixed := by
  intro c
  by_cases hpost : collection = c
  · subst hpost
    decide
  · by_cases hnote : notes.collection = c
    · subst hnote
      decide
    · have hnone : ∀ ops : List DiffOperation,
          (∀ op ∈ ops, op.collection = collection ∨ op.collection = notes.collection) →
            DiffOperation.on c ops = [] := fun ops h =>
        List.filter_eq_nil_iff.mpr fun op hop e => by
          rcases h op hop with h | h
          · exact hpost (h.symm.trans (of_decide_eq_true e))
          · exact hnote (h.symm.trans (of_decide_eq_true e))
      rw [hnone apart (by decide), hnone mixed (by decide)]

end Posts

/-- The posts and the notes are altered in the same way, whichever of them comes first. -/
theorem Migrator.batch_interleaved_of_posts :
    Posts.migrator.chooser.Memoryless ∧ Interleaved Posts.apart Posts.mixed ∧
      ∃ queries queries',
        ((Posts.migrator.batch Posts.apart).outcome ⟨(), (), []⟩).1 = .ok queries ∧
        ((Posts.migrator.batch Posts.mixed).outcome ⟨(), (), []⟩).1 = .ok queries' ∧
        queries.Perm queries' ∧
        ∀ c, (queries.filter fun q => q.collection? = some c) =
          queries'.filter fun q => q.collection? = some c := by
  have happart : ((Posts.migrator.batch Posts.apart).outcome ⟨(), (), []⟩).1 =
      .ok [Posts.exchange Posts.declared "slug" "legacy",
        Posts.exchange Posts.notes "body" "mark"] := rfl
  have hmixed : ((Posts.migrator.batch Posts.mixed).outcome ⟨(), (), []⟩).1 =
      .ok [Posts.exchange Posts.notes "body" "mark",
        Posts.exchange Posts.declared "slug" "legacy"] := rfl
  exact ⟨Chooser.memoryless_defaults, Posts.interleaved, _, _, happart, hmixed,
    (Migrator.batch_interleaved Chooser.memoryless_defaults Posts.interleaved _ _).2 _ _ happart
      hmixed⟩

end SchemaMigration
