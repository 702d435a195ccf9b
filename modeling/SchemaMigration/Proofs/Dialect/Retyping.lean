import Mathlib.Logic.Function.Basic
import SchemaMigration.Proofs.Description.Expansion
import SchemaMigration.Proofs.Outcome
import SchemaMigration.Statement.Structure

/-!
# Retyping a column on both dialects

A column takes another definition and keeps its data. PostgreSQL changes it where it stands; SQLite
fills a new column from it and drops it, and needs a scratch column where the name stays the same.

About the `alter_column` of both dialects.

A table is read as a map from the names of its columns to their logical types and their values.
Values are copied as they are, so casts do not count, and neither do defaults once a column is
there. A statement that needs a free name or a column that is there fails without it.

* `Ddl.carryOut?`: the table after a statement, if it can be carried out.
* `carryOut_replaceColumn`, `carryOut_reshapeColumn`: what the two ways of changing a column leave.
* **`Dialect.alterColumn_refines_iff`**: SQLite's statements can be carried out iff no column of the
  table has the name of the scratch column, where there is one; they leave what PostgreSQL's leave.
-/

namespace SchemaMigration

/-! ## Tables -/

/-- A column of a table with rows `ρ`. -/
structure StoredColumn (ρ : Type) where
  /-- The logical type. -/
  type : ColumnType
  /-- The value in every row. -/
  values : ρ → Value

/-- The columns of a table with rows `ρ`, by their names. -/
abbrev StoredTable (ρ : Type) := String → Option (StoredColumn ρ)

namespace StoredTable

variable {ρ : Type}

/-- The table with a further column, if its name is free. -/
def add? (t : StoredTable ρ) (name : String) (column : StoredColumn ρ) : Option (StoredTable ρ) :=
  if (t name).isSome then none else some (Function.update t name (some column))

/-- The table with the values of one column in another one, if both are there. -/
def copy? (t : StoredTable ρ) (target source : String) : Option (StoredTable ρ) :=
  (t source).bind fun s =>
    (t target).map fun c => Function.update t target (some { c with values := s.values })

/-- The table without a column, if it is there. -/
def drop? (t : StoredTable ρ) (name : String) : Option (StoredTable ρ) :=
  (t name).map fun _ => Function.update t name none

/-- The table with a column under another definition, which has the values of the old one. -/
def moved (t : StoredTable ρ) (source target : String) (column : StoredColumn ρ) : StoredTable ρ :=
  Function.update (Function.update t source none) target (some column)

/-- The table with a column under another name, if the column is there and the name is free. -/
def rename? (t : StoredTable ρ) (source target : String) : Option (StoredTable ρ) :=
  (t source).bind fun c => if (t target).isSome then none else some (t.moved source target c)

/-- The table with a column of another type, if it is there. -/
def retype? (t : StoredTable ρ) (name : String) (type : ColumnType) : Option (StoredTable ρ) :=
  (t name).map fun c => Function.update t name (some { c with type := type })

end StoredTable

/-! ## Statements on columns -/

/-- The table whose columns a statement changes. -/
def Ddl.columnsOf? : Ddl → Option CollectionRef
  | .addColumn table _ => some table
  | .copyColumn table _ _ _ => some table
  | .dropColumn table _ => some table
  | .renameColumn table _ _ => some table
  | .retypeColumn table _ _ => some table
  | .setDefault table _ _ => some table
  | _ => none

/-- The columns after a statement on columns; `read` tells which logical type a type name means. A
new column has its default in every row. -/
def Ddl.onColumns? {ρ : Type} (read : String → ColumnType) (t : StoredTable ρ) :
    Ddl → Option (StoredTable ρ)
  | .addColumn _ c => t.add? c.name ⟨read c.typeName, fun _ => c.default.getD .null⟩
  | .copyColumn _ target source _ => t.copy? target source
  | .dropColumn _ name => t.drop? name
  | .renameColumn _ source target => t.rename? source target
  | .retypeColumn _ name typeName => t.retype? name (read typeName)
  | .setDefault _ name _ => (t name).map fun _ => t
  | _ => none

/-- The table of a collection after a statement on its columns, if the statement can be carried
out. -/
def Ddl.carryOut? {ρ : Type} (read : String → ColumnType) (c : CollectionRef) (t : StoredTable ρ)
    (s : Ddl) : Option (StoredTable ρ) :=
  if s.columnsOf? = some c then s.onColumns? read t else none

/-- The table of a collection after several statements, one after the other. -/
def carryOutAll? {ρ : Type} (read : String → ColumnType) (c : CollectionRef) (t : StoredTable ρ)
    (ss : List Ddl) : Option (StoredTable ρ) :=
  ss.foldlM (Ddl.carryOut? read c) t

section Statements

variable {ρ : Type} {read : String → ColumnType} {c : CollectionRef} {t : StoredTable ρ}

theorem carryOutAll?_cons {s : Ddl} (h : s.columnsOf? = some c) (ss : List Ddl) :
    carryOutAll? read c t (s :: ss) =
      (s.onColumns? read t).bind fun u => carryOutAll? read c u ss := by
  unfold carryOutAll?
  rw [List.foldlM_cons, Ddl.carryOut?, if_pos h]
  rfl

theorem carryOutAll?_append (ss ss' : List Ddl) :
    carryOutAll? read c t (ss ++ ss') =
      (carryOutAll? read c t ss).bind fun u => carryOutAll? read c u ss' :=
  List.foldlM_append

end Statements

/-! ## Two ways of changing a column -/

namespace StoredTable

variable {ρ : Type} {t : StoredTable ρ} {source target name : String} {column : StoredColumn ρ}

@[simp]
theorem moved_target : t.moved source target column target = some column :=
  Function.update_self ..

theorem moved_source (h : source ≠ target) : t.moved source target column source = none := by
  rw [moved, Function.update_of_ne h, Function.update_self]

theorem moved_of_ne (h : name ≠ source) (h' : name ≠ target) :
    t.moved source target column name = t name := by
  rw [moved, Function.update_of_ne h', Function.update_of_ne h]

/-- A column that is moved under a free name and from there to a third one is moved to that. -/
theorem moved_moved (hfree : t name = none) (hne : name ≠ source) {column' : StoredColumn ρ} :
    (t.moved source name column).moved name target column' = t.moved source target column' := by
  funext other
  by_cases htarget : other = target
  · rw [htarget, moved_target, moved_target]
  · by_cases hname : other = name
    · subst hname
      rw [moved_source htarget, moved_of_ne hne htarget, hfree]
    · rw [moved_of_ne hname htarget]
      by_cases hsource : other = source
      · subst hsource
        rw [moved_source hname, moved_source htarget]
      · rw [moved_of_ne hsource hname, moved_of_ne hsource htarget]

end StoredTable

namespace Dialect

/-- The name of a scratch column is another one. -/
theorem scratchName_ne (name : String) : scratchName name ≠ name := by
  intro h
  have hlength := congrArg String.length h
  simp [scratchName] at hlength

variable {ρ : Type} {t : StoredTable ρ} {source : String} {column : Column}
  {stored : StoredColumn ρ}

/-- A column that does not count up can be added in every dialect. -/
theorem addColumn_eq (d : Dialect) (c : CollectionRef) (hcounts : column.autoIncrement = false) :
    d.addColumn c column = .ok
      (.addColumn c ⟨column.name, d.typeName column, false, false, column.effectiveDefault⟩) := by
  cases d with
  | sqlite =>
    rw [addColumn, columnClause, if_neg Bool.false_ne_true, hcounts]
    rfl
  | postgres =>
    rw [addColumn, columnClause, hcounts]
    rfl

section

variable (d : Dialect) (read : String → ColumnType) (c : CollectionRef)

theorem onColumns?_copyColumn (t : StoredTable ρ) (source : String) (column : Column) :
    (d.copyColumn c source column).columnsOf? = some c ∧
      (d.copyColumn c source column).onColumns? read t = t.copy? column.name source := by
  cases d <;> exact ⟨rfl, rfl⟩

/-- A column is replaced by one of a free name, which has its values. -/
theorem carryOut_replaceColumn (hcounts : column.autoIncrement = false)
    (hsource : t source = some stored) (hfree : t column.name = none) :
    ∃ ss, d.replaceColumn c source column = .ok ss ∧ carryOutAll? read c t ss =
      some (t.moved source column.name ⟨read (d.typeName column), stored.values⟩) := by
  have hne : source ≠ column.name := by
    rintro rfl
    rw [hsource] at hfree
    cases hfree
  obtain ⟨hcopied, hcopy⟩ := onColumns?_copyColumn d read c (Function.update t column.name
    (some ⟨read (d.typeName column), fun _ => column.effectiveDefault.getD .null⟩)) source column
  refine ⟨_, by rw [replaceColumn, addColumn_eq d c hcounts]; rfl, ?_⟩
  rw [carryOutAll?_cons rfl, Ddl.onColumns?, StoredTable.add?, hfree, if_neg (by simp),
    Option.bind_some, carryOutAll?_cons hcopied, hcopy, StoredTable.copy?,
    Function.update_of_ne hne, hsource, Option.bind_some, Function.update_self, Option.map_some,
    Option.bind_some, Function.update_idem, carryOutAll?_cons rfl, Ddl.onColumns?,
    StoredTable.drop?, Function.update_of_ne hne, hsource, Option.map_some, Option.bind_some,
    Function.update_comm hne.symm]
  rfl

/-- A column is not replaced by one whose name is taken. -/
theorem carryOut_replaceColumn_taken (source : String) (hcounts : column.autoIncrement = false)
    (htaken : t column.name ≠ none) :
    ∃ ss, d.replaceColumn c source column = .ok ss ∧ carryOutAll? read c t ss = none := by
  refine ⟨_, by rw [replaceColumn, addColumn_eq d c hcounts]; rfl, ?_⟩
  rw [carryOutAll?_cons rfl, Ddl.onColumns?, StoredTable.add?,
    if_pos (Option.isSome_iff_ne_none.mpr htaken)]
  rfl

/-- A column is reshaped where it stands, after it took its new name. -/
theorem carryOut_reshapeColumn (hsource : t source = some stored)
    (htarget : column.name = source ∨ t column.name = none) :
    carryOutAll? read c t (d.reshapeColumn c source column) =
      some (t.moved source column.name ⟨read (d.typeName column), stored.values⟩) := by
  have hretype : ∀ u : StoredTable ρ, u column.name = some stored →
      carryOutAll? read c u [.retypeColumn c column.name (d.typeName column),
        .setDefault c column.name column.effectiveDefault] =
          some (Function.update u column.name
            (some ⟨read (d.typeName column), stored.values⟩)) := by
    intro u hu
    rw [carryOutAll?_cons rfl, Ddl.onColumns?, StoredTable.retype?, hu, Option.map_some,
      Option.bind_some, carryOutAll?_cons rfl, Ddl.onColumns?, Function.update_self]
    rfl
  unfold reshapeColumn
  by_cases hname : source = column.name
  · subst hname
    rw [if_pos rfl, List.nil_append, hretype t hsource, StoredTable.moved, Function.update_idem]
  · have hfree : t column.name = none := htarget.resolve_left fun h => hname h.symm
    rw [if_neg hname, List.singleton_append, carryOutAll?_cons rfl, Ddl.onColumns?,
      StoredTable.rename?, hsource, Option.bind_some, hfree, if_neg (by simp), Option.bind_some,
      hretype _ StoredTable.moved_target, StoredTable.moved, Function.update_idem]
    rfl

end

/-- On SQLite a column takes another definition, unless its name stays and a column of the table has
the name of its scratch column. -/
theorem carryOut_alterColumn_sqlite (read : String → ColumnType) (c : CollectionRef)
    (hcounts : column.autoIncrement = false) (hsource : t source = some stored)
    (htarget : column.name = source ∨ t column.name = none) :
    ∃ ss, Dialect.sqlite.alterColumn c source column = .ok ss ∧
      carryOutAll? read c t ss =
        if column.name = source ∧ t (scratchName column.name) ≠ none then none
        else some (t.moved source column.name
          ⟨read (Dialect.sqlite.typeName column), stored.values⟩) := by
  by_cases hname : source = column.name
  · subst hname
    have hcounts' : (column.renamed (scratchName column.name)).autoIncrement = false := hcounts
    by_cases hscratch : t (scratchName column.name) = none
    · obtain ⟨ss, hss, hmoved⟩ := carryOut_replaceColumn .sqlite read c hcounts' hsource
        hscratch
      refine ⟨ss ++ [.renameColumn c (scratchName column.name) column.name], ?_, ?_⟩
      · unfold alterColumn
        simp only [if_true, hss]
        rfl
      · have hmoved : carryOutAll? read c t ss = some (t.moved column.name
            (scratchName column.name) ⟨read (Dialect.sqlite.typeName column), stored.values⟩) :=
          hmoved
        rw [if_neg fun h => h.2 hscratch, carryOutAll?_append, hmoved, Option.bind_some,
          carryOutAll?_cons rfl, Ddl.onColumns?, StoredTable.rename?, StoredTable.moved_target,
          Option.bind_some, StoredTable.moved_source (scratchName_ne _).symm, if_neg (by simp),
          Option.bind_some]
        exact congrArg some (StoredTable.moved_moved hscratch (scratchName_ne _))
    · obtain ⟨ss, hss, hnone⟩ := carryOut_replaceColumn_taken .sqlite read c column.name
        hcounts' hscratch
      refine ⟨ss ++ [.renameColumn c (scratchName column.name) column.name], ?_, ?_⟩
      · unfold alterColumn
        simp only [if_true, hss]
        rfl
      · rw [if_pos ⟨rfl, hscratch⟩, carryOutAll?_append, hnone, Option.bind_none]
  · have hfree : t column.name = none := htarget.resolve_left fun h => hname h.symm
    obtain ⟨ss, hss, hmoved⟩ := carryOut_replaceColumn .sqlite read c hcounts hsource hfree
    refine ⟨ss, ?_, ?_⟩
    · unfold alterColumn
      simp only [if_neg hname]
      exact hss
    · rw [if_neg fun h => hname h.1.symm, hmoved]

/-- **SQLite's way of changing a column leaves what PostgreSQL's leaves**, if it can be gone. Where
both dialects take their names of the type for the logical type, PostgreSQL's statements can always
be carried out: the column has its new name, its new type and its old values, and no other column
changes. SQLite's statements can be carried out iff the name changes or no column of the table has
the name of the scratch column, and then they leave the same table. -/
theorem alterColumn_refines_iff {read : Dialect → String → ColumnType} (c : CollectionRef)
    (hread : ∀ d, read d (d.typeName column) = column.type)
    (hcounts : column.autoIncrement = false) (hsource : t source = some stored)
    (htarget : column.name = source ∨ t column.name = none) :
    ∃ emulated native reached, Dialect.sqlite.alterColumn c source column = .ok emulated ∧
      Dialect.postgres.alterColumn c source column = .ok native ∧
      carryOutAll? (read .postgres) c t native = some reached ∧
      reached column.name = some ⟨column.type, stored.values⟩ ∧
      (source ≠ column.name → reached source = none) ∧
      (∀ name, name ≠ source → name ≠ column.name → reached name = t name) ∧
      ((∃ reached', carryOutAll? (read .sqlite) c t emulated = some reached') ↔
        (column.name = source → t (scratchName column.name) = none)) ∧
      ∀ reached', carryOutAll? (read .sqlite) c t emulated = some reached' →
        reached' = reached := by
  obtain ⟨emulated, hemulated, hleft⟩ := carryOut_alterColumn_sqlite (read .sqlite) c
    hcounts hsource htarget
  rw [hread] at hleft
  refine ⟨emulated, _, t.moved source column.name ⟨column.type, stored.values⟩, hemulated, rfl,
    ?_, StoredTable.moved_target, StoredTable.moved_source,
    fun name => StoredTable.moved_of_ne, ?_, ?_⟩
  · rw [carryOut_reshapeColumn .postgres _ c hsource htarget, hread]
  · rw [hleft]
    by_cases htaken : column.name = source ∧ t (scratchName column.name) ≠ none
    · rw [if_pos htaken]
      simpa using ⟨htaken.1, htaken.2⟩
    · rw [if_neg htaken]
      simpa using htaken
  · intro reached' hreached
    rw [hleft] at hreached
    split at hreached
    · cases hreached
    · exact (Option.some.inj hreached).symm

end Dialect

/-! ## An example -/

namespace Posts

/-- The logical types of the type names of a dialect. -/
def readType (d : Dialect) (typeName : String) : ColumnType :=
  ((d.parseTypeName? typeName).map Prod.fst).getD .text

/-- The views as a text, which is declared as a number. -/
def writtenViews : StoredColumn Unit := ⟨.text, fun _ => .text "three"⟩

/-- The views as they are declared. -/
def views : Column := .plain "views" .int64

/-- The title of the post. -/
def writtenTitle : StoredColumn Unit := ⟨.text, fun _ => .text "Hello"⟩

/-- A post with its title and its views. -/
def stored : StoredTable Unit :=
  Function.update (Function.update (fun _ => none) "title" (some writtenTitle)) "views"
    (some writtenViews)

/-- The post with a further column, which has the name of the scratch column. -/
def scratched : StoredTable Unit := Function.update stored "views__tmp" (some writtenViews)

theorem readType_views (d : Dialect) : readType d (d.typeName views) = views.type := by
  cases d <;> decide +kernel

end Posts

/-- Both dialects turn the views into a number and leave the title as it was. -/
theorem Dialect.alterColumn_of_posts :
    ∃ emulated native reached, Dialect.sqlite.alterColumn Posts.collection "views" Posts.views =
        .ok emulated ∧
      Dialect.postgres.alterColumn Posts.collection "views" Posts.views = .ok native ∧
      carryOutAll? (Posts.readType .sqlite) Posts.collection Posts.stored emulated =
        some reached ∧
      carryOutAll? (Posts.readType .postgres) Posts.collection Posts.stored native =
        some reached ∧
      reached "views" = some ⟨.int64, Posts.writtenViews.values⟩ ∧
      reached "title" = some Posts.writtenTitle := by
  have hviews : Posts.stored "views" = some Posts.writtenViews := rfl
  obtain ⟨emulated, native, reached, hemulated, hnative, hreached, hcolumn, -, hothers, hgoes,
    hsame⟩ :=
    Dialect.alterColumn_refines_iff Posts.collection Posts.readType_views rfl hviews (.inl rfl)
  have htitle : reached "title" = Posts.stored "title" :=
    hothers "title" (by decide) (by decide)
  obtain ⟨reached', hreached'⟩ := hgoes.mpr fun _ => rfl
  obtain rfl := hsame reached' hreached'
  exact ⟨emulated, native, reached', hemulated, hnative, hreached', hreached, hcolumn, htitle⟩

/-- A column that has the name of the scratch column is in SQLite's way, and not in PostgreSQL's. -/
theorem Dialect.alterColumn_scratched :
    ∃ emulated native reached, Posts.views.check = .ok () ∧ Posts.views.autoIncrement = false ∧
      Dialect.sqlite.alterColumn Posts.collection "views" Posts.views = .ok emulated ∧
      Dialect.postgres.alterColumn Posts.collection "views" Posts.views = .ok native ∧
      carryOutAll? (Posts.readType .postgres) Posts.collection Posts.scratched native =
        some reached ∧
      carryOutAll? (Posts.readType .sqlite) Posts.collection Posts.scratched emulated = none :=
  ⟨_, _, _, rfl, rfl, rfl, rfl, rfl, rfl⟩

end SchemaMigration
