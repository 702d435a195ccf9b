import Mathlib.Data.List.Perm.Basic
import Mathlib.Data.Prod.Lex
import Mathlib.Data.String.Basic
import Mathlib.Order.WithBot
import SchemaMigration.Catalog.Describe
import SchemaMigration.Compile
import SchemaMigration.Proofs.Description.Expansion
import SchemaMigration.Proofs.Identity

/-!
# Listing the collections

The catalog names its tables in any order. Those whose names are identities are listed as
collections, each as often as its table is named, and the order of the listing is one of the
collections alone.

About `decode_show` and `parse_identity`.

* `CollectionRef.place`: where a collection stands in a listing. Collections at one place are equal,
  so a list of collections can be sorted in one way only (`sorted_eq_of_perm`).
* `tableNames_eq_ok_iff`: the names that are read are those of the rows.
* **`Catalog.collections_of_names`**: what is listed, in which order, from which tables.
-/

namespace SchemaMigration

/-! ## The order of listings -/

namespace CollectionRef

/-- Where a collection stands in a listing: first those outside every namespace, then by namespace,
and then by name. -/
def place (c : CollectionRef) : Lex (WithBot String × String) :=
  toLex (c.scope, c.name)

/-- Listings are compared by place. -/
theorem le_eq_true_iff {c d : CollectionRef} : le c d = true ↔ c.place ≤ d.place := by
  have hplace : c.place ≤ d.place ↔
      @LT.lt (WithBot String) _ c.scope d.scope ∨ c.scope = d.scope ∧ c.name ≤ d.name :=
    Prod.Lex.toLex_le_toLex
  rw [hplace]
  unfold le
  cases c.scope with
  | none =>
    cases d.scope with
    | none =>
      have hlt : ¬ @LT.lt (WithBot String) _ none none := lt_irrefl (⊥ : WithBot String)
      simp [hlt]
    | some t =>
      have hlt : @LT.lt (WithBot String) _ none (some t) := WithBot.bot_lt_coe t
      simp [hlt]
  | some s =>
    cases d.scope with
    | none =>
      have hlt : ¬ @LT.lt (WithBot String) _ (some s) none := not_lt_bot
      simp [hlt]
    | some t =>
      have hlt : @LT.lt (WithBot String) _ (some s) (some t) ↔ s < t := WithBot.coe_lt_coe
      simp [hlt]

/-- Collections at one place are equal. -/
theorem eq_of_place_eq {c d : CollectionRef} (h : c.place = d.place) : c = d := by
  have hparts : (c.scope, c.name) = (d.scope, d.name) := toLex.injective h
  exact ext_parts (congrArg Prod.fst hparts) (congrArg Prod.snd hparts)

theorem sorted_perm (cs : List CollectionRef) : (sorted cs).Perm cs :=
  List.mergeSort_perm cs le

theorem pairwise_sorted (cs : List CollectionRef) :
    (sorted cs).Pairwise fun c d => c.place ≤ d.place := by
  have htrans : ∀ a b c : CollectionRef, le a b = true → le b c = true → le a c = true := by
    intro a b c hab hbc
    rw [le_eq_true_iff] at hab hbc ⊢
    exact hab.trans hbc
  have htotal : ∀ a b : CollectionRef, (le a b || le b a) = true := by
    intro a b
    rw [Bool.or_eq_true, le_eq_true_iff, le_eq_true_iff]
    exact le_total _ _
  exact (List.pairwise_mergeSort htrans htotal cs).imp fun h => le_eq_true_iff.mp h

/-- The order in which collections come does not show in the listing. -/
theorem sorted_eq_of_perm {cs ds : List CollectionRef} (h : cs.Perm ds) : sorted cs = sorted ds :=
  List.Perm.eq_of_pairwise (fun _ _ _ _ hcd hdc => eq_of_place_eq (le_antisymm hcd hdc))
    (pairwise_sorted cs) (pairwise_sorted ds)
    ((sorted_perm cs).trans (h.trans (sorted_perm ds).symm))

/-- The collections that names are the identities of, in the order of the names. -/
def ofNames (names : List String) : List CollectionRef :=
  names.filterMap fun name => (parseIdentity name).toOption

theorem mem_ofNames {names : List String} {c : CollectionRef} :
    c ∈ ofNames names ↔ ∃ name ∈ names, parseIdentity name = .ok c := by
  unfold ofNames
  rw [List.mem_filterMap]
  refine exists_congr fun name => and_congr_right fun _ => ?_
  cases parseIdentity name <;> simp [Except.toOption]

/-- The collections that names lead to are known by those names. -/
theorem map_identity_ofNames (names : List String) :
    (ofNames names).map identity = names.filter fun name => (parseIdentity name).isOk := by
  induction names with
  | nil => rfl
  | cons name names ih =>
    unfold ofNames at ih ⊢
    cases h : parseIdentity name with
    | error m => simpa [h, Except.toOption, Except.isOk, Except.toBool] using ih
    | ok c =>
      have hidentity := identity_of_parseIdentity h
      simpa [h, hidentity, Except.toOption, Except.isOk, Except.toBool] using ih

end CollectionRef

/-! ## Reading the names -/

namespace Catalog

/-- The row lists a table of the name. -/
def NamesTable (r : Row) (name : String) : Prop :=
  (Row.find? r "name").bind Value.asText? = some name

/-- The names that are read are those of the rows. -/
theorem tableNames_eq_ok_iff : ∀ {rows : List Row} {names : List String},
    tableNames rows = .ok names ↔ List.Forall₂ NamesTable rows names
  | [], names => by
    rw [List.forall₂_nil_left_iff]
    constructor
    · intro h
      cases h
      rfl
    · rintro rfl
      rfl
  | r :: rows, names => by
    rw [tableNames, bind_eq_ok_iff, List.forall₂_cons_left_iff]
    constructor
    · rintro ⟨name, hname, h⟩
      obtain ⟨rest, hrest, h⟩ := bind_eq_ok_iff.mp h
      cases h
      exact ⟨name, rest, Listing.text_eq_ok_iff.mp hname, tableNames_eq_ok_iff.mp hrest, rfl⟩
    · rintro ⟨name, rest, hname, hrest, rfl⟩
      exact ⟨name, Listing.text_eq_ok_iff.mpr hname,
        bind_eq_ok_iff.mpr ⟨rest, tableNames_eq_ok_iff.mpr hrest, rfl⟩⟩

/-! ## The listing -/

/-- The collection stands for the table of that name. -/
structure StandsFor (c : CollectionRef) (table : String) : Prop where
  /-- The name is read as the collection. -/
  parsed : CollectionRef.parseIdentity table = .ok c
  /-- The collection is known by the name of the table. -/
  identity : c.identity = table
  /-- Describing the collection asks for the table three times, and for no other. -/
  described : ∀ vars, ∃ cq, (Query.describeCollection c).compile .sqlite vars = .ok cq ∧
    cq.statements.map Statement.parameters = List.replicate 3 [.text table]

theorem standsFor_of_parseIdentity {c : CollectionRef} {table : String}
    (h : CollectionRef.parseIdentity table = .ok c) : StandsFor c table := by
  have hidentity := CollectionRef.identity_of_parseIdentity h
  refine ⟨h, hidentity, fun vars => ⟨_, rfl, ?_⟩⟩
  show List.replicate 3 [Value.text c.identity] = _
  rw [hidentity]

theorem collections_eq {rows : List Row} {names : List String}
    (h : List.Forall₂ NamesTable rows names) :
    collections rows = .ok (CollectionRef.sorted (CollectionRef.ofNames names)) :=
  bind_eq_ok_iff.mpr ⟨names, tableNames_eq_ok_iff.mpr h, rfl⟩

/-- **The listing of the tables of a catalog**: it has a collection for every name that is an
identity, as often as the name occurs, and known by that name; they come in the order of listings;
and the order of the rows does not show in it. -/
theorem collections_of_names {rows : List Row} {names : List String}
    (h : List.Forall₂ NamesTable rows names) :
    ∃ listed tables, collections rows = .ok listed ∧
      tables.Perm (names.filter fun name => (CollectionRef.parseIdentity name).isOk) ∧
      List.Forall₂ StandsFor listed tables ∧
      (listed.Pairwise fun c d => c.place ≤ d.place) ∧
      ∀ rows', rows'.Perm rows → collections rows' = .ok listed := by
  have hperm := CollectionRef.sorted_perm (CollectionRef.ofNames names)
  refine ⟨CollectionRef.sorted (CollectionRef.ofNames names),
    (CollectionRef.sorted (CollectionRef.ofNames names)).map CollectionRef.identity,
    collections_eq h, ?_, ?_, CollectionRef.pairwise_sorted _, ?_⟩
  · rw [← CollectionRef.map_identity_ofNames]
    exact hperm.map CollectionRef.identity
  · rw [List.forall₂_map_right_iff, List.forall₂_same]
    intro c hc
    obtain ⟨name, -, hname⟩ := CollectionRef.mem_ofNames.mp (hperm.mem_iff.mp hc)
    have hfor := standsFor_of_parseIdentity hname
    rwa [← hfor.identity] at hfor
  · intro rows' hrows
    -- The rows in another order have the names in another order.
    obtain ⟨names', hnames', hother⟩ := List.perm_comp_forall₂ hrows h
    have hlisted : (CollectionRef.ofNames names').Perm (CollectionRef.ofNames names) :=
      hother.filterMap _
    rw [collections_eq hnames', CollectionRef.sorted_eq_of_perm hlisted]

end Catalog

/-! ## An example -/

namespace Posts

/-- The row of a table. -/
def tableRow (name : String) : Row := [("name", .text name)]

/-- The rows of a catalog in which one table stands for no collection. -/
def tableRows : List Row := [tableRow "blog__post", tableRow "post; old", tableRow "post"]

/-- The names of the tables. -/
def tables : List String := ["blog__post", "post; old", "post"]

/-- Posts of a blog. -/
def blogPosts : CollectionRef := ⟨some "blog", "post", blog_valid, post_valid⟩

theorem tableRows_names : List.Forall₂ Catalog.NamesTable tableRows tables :=
  .cons rfl (.cons rfl (.cons rfl .nil))

theorem ofNames_tables : CollectionRef.ofNames tables = [blogPosts, collection] := by
  decide

theorem sorted_posts : CollectionRef.sorted [blogPosts, collection] = [collection, blogPosts] := by
  simp [CollectionRef.sorted, CollectionRef.le, blogPosts, collection, List.mergeSort]

theorem collections_tableRows : Catalog.collections tableRows = .ok [collection, blogPosts] := by
  rw [Catalog.collections_eq tableRows_names, ofNames_tables, sorted_posts]

end Posts

/-- The two collections are listed in their order, whichever way the catalog lists their tables. -/
theorem Catalog.collections_of_posts :
    List.Forall₂ NamesTable Posts.tableRows Posts.tables ∧
      (∃ tables, tables.Perm ["blog__post", "post"] ∧
        List.Forall₂ StandsFor [Posts.collection, Posts.blogPosts] tables) ∧
      ∀ rows', rows'.Perm Posts.tableRows →
        collections rows' = .ok [Posts.collection, Posts.blogPosts] := by
  refine ⟨Posts.tableRows_names, ?_⟩
  obtain ⟨listed, tables, hlisted, hperm, hfor, -, hrows⟩ :=
    Catalog.collections_of_names Posts.tableRows_names
  obtain rfl := Except.ok.inj (hlisted.symm.trans Posts.collections_tableRows)
  exact ⟨⟨tables, hperm, hfor⟩, hrows⟩

end SchemaMigration
