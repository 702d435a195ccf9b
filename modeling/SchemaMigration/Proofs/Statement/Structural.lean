import SchemaMigration.Compile
import SchemaMigration.Proofs.Statement.Separation

/-!
# Structural statements are kept apart

Creations and alterations check what they are given, so every name that their statements write is
safe, and the only literals they write are the defaults of columns.

* `Ddl.Safe`, **`Ddl.clean_pieces`**: a structural statement over safe names is clean, and the
  literals in it are its defaults.
* `columnClause_ok`, `alterColumn_ok`: what the dialects make of a column.
* **`CreateCollection.ddl_ok`**, **`AlterCollection.ddlOfSteps_ok`**: the statements of accepted
  structural queries are safe and write the defaults of the columns they define.
-/

namespace SchemaMigration

open Identifier

/-! ## Structural statements -/

/-- The name of a column clause is safe and its type is read as it stands. -/
structure ColumnClause.Safe (c : ColumnClause) : Prop where
  /-- The name is made of the characters of identifiers. -/
  name : Identifier.Safe c.name
  /-- The type holds neither quotes nor placeholders. -/
  typeName : Verbatim c.typeName

/-- The names in a structural statement are safe and its types are read as they stand. -/
def Ddl.Safe : Ddl → Prop
  | .createTable _ columns key =>
    (∀ c ∈ columns, c.Safe) ∧ ∀ fields ∈ key, ∀ f ∈ fields, Identifier.Safe f
  | .createIndex _ name _ columns => Identifier.Safe name ∧ ∀ c ∈ columns, Identifier.Safe c.field
  | .addColumn _ column => column.Safe
  | .copyColumn _ target source cast =>
    Identifier.Safe target ∧ Identifier.Safe source ∧
      ∀ typeName ∈ cast, Verbatim typeName
  | .dropColumn _ name => Identifier.Safe name
  | .renameColumn _ source target => Identifier.Safe source ∧ Identifier.Safe target
  | .retypeColumn _ name typeName =>
    Identifier.Safe name ∧ Verbatim typeName
  | .setDefault _ name _ => Identifier.Safe name
  | .addPrimaryKey _ fields => ∀ f ∈ fields, Identifier.Safe f
  | .dropConstraint _ name => Identifier.Safe name
  | .dropIndex name => Identifier.Safe name
  | .renameTable _ _ => True
  | .dropTable _ => True

/-- The defaults that a structural statement writes. -/
def Ddl.defaults : Ddl → List Value
  | .createTable _ columns _ => columns.filterMap ColumnClause.default
  | .addColumn _ column => column.default.toList
  | .setDefault _ _ default => default.toList
  | _ => []

theorem clean_defaultPieces (default : Option Value) :
    Clean (defaultPieces default) ∧ Opens (defaultPieces default) ∧
      literals (defaultPieces default) = default.toList := by
  cases default with
  | none => exact ⟨Clean.nil, opens_nil, rfl⟩
  | some v =>
    exact ⟨(Clean.nil.literal v opens_nil).after " DEFAULT ", opens_words _ _, rfl⟩

theorem ColumnClause.verbatim_attributeWords (d : Dialect) (c : ColumnClause) :
    Verbatim (c.attributeWords d) := by
  cases d with
  | sqlite =>
    unfold attributeWords
    simp only
    split <;> decide
  | postgres =>
    refine Verbatim.append ?_ ?_
    · split <;> decide
    · split <;> decide

theorem ColumnClause.clean_pieces {d : Dialect} {c : ColumnClause} (h : c.Safe) :
    Clean (c.pieces d) ∧ literals (c.pieces d) = c.default.toList := by
  obtain ⟨hdefault, hopens, hliterals⟩ := clean_defaultPieces c.default
  have hblank : Verbatim " " := by decide
  have hproper := isProper_words
    ((hblank.append h.typeName).append (c.verbatim_attributeWords d))
  have hwords : (Piece.words (" " ++ c.typeName ++ c.attributeWords d)).opens = true :=
    opens_append (opens_append (by decide) _) _
  exact ⟨(hdefault.cons hproper (Or.inr hopens)).name h.name (opens_cons hwords _), hliterals⟩

theorem plain_namePieces {names : List String} (h : ∀ n ∈ names, Safe n) :
    Plain (namePieces names) := by
  refine Plain.commas fun g hg => ?_
  obtain ⟨n, hn, rfl⟩ := List.mem_map.mp hg
  exact Plain.nil.name (h n hn) opens_nil

theorem plain_keyPieces {fields : List String} (h : ∀ f ∈ fields, Safe f) :
    Plain (keyPieces fields) :=
  ((plain_namePieces h).append plain_close (opens_words _ _)).after "PRIMARY KEY ("

theorem plain_indexKeyPieces {columns : List IndexColumn} (h : ∀ c ∈ columns, Safe c.field) :
    Plain (indexKeyPieces columns) := by
  refine Plain.commas fun g hg => ?_
  obtain ⟨c, hc, rfl⟩ := List.mem_map.mp hg
  have hwords : (Piece.words (" " ++ c.direction.keyword)).isProper = true ∧
      (Piece.words (" " ++ c.direction.keyword)).opens = true := by
    cases c.direction <;> decide
  exact (Plain.nil.words hwords.1 (Or.inr opens_nil)).name (h c hc) (opens_cons hwords.2 _)

/-- A change of a table is clean if what follows the table's name is. -/
theorem Clean.alterTable (table : CollectionRef) {ps : List Piece} (h : Clean ps) (ho : Opens ps) :
    Clean (SchemaMigration.alterTable table ++ ps) :=
  (h.name table.safe_identity ho).after "ALTER TABLE "

namespace Ddl

variable {d : Dialect}

theorem clean_createTable {table : CollectionRef} {columns : List ColumnClause}
    {key : Option (List String)} (h : (createTable table columns key).Safe) :
    Clean ((createTable table columns key).pieces d) ∧
      literals ((createTable table columns key).pieces d) =
        columns.filterMap ColumnClause.default := by
  obtain ⟨hcolumns, hkey⟩ := h
  have hgroups : ∀ g ∈ columns.map (ColumnClause.pieces d) ++ (key.map keyPieces).toList,
      Clean g := by
    rw [List.forall_mem_append]
    constructor
    · intro g hg
      obtain ⟨c, hc, rfl⟩ := List.mem_map.mp hg
      exact (ColumnClause.clean_pieces (hcolumns c hc)).1
    · intro g hg
      obtain ⟨fields, hfields, rfl⟩ := Option.map_eq_some_iff.mp (Option.mem_toList.mp hg)
      exact (plain_keyPieces (hkey fields hfields)).1
  have hclauses := ((Clean.commas hgroups).append plain_close.1 (opens_words _ _)).after " ("
  refine ⟨(hclauses.name table.safe_identity (opens_words _ _)).after "CREATE TABLE ", ?_⟩
  have hdefaults : (columns.map (ColumnClause.pieces d)).flatMap literals =
      columns.filterMap ColumnClause.default := by
    rw [List.flatMap_map, List.filterMap_eq_flatMap_toList]
    exact List.flatMap_congr fun c hc => (ColumnClause.clean_pieces (hcolumns c hc)).2
  have hnone : (key.map keyPieces).toList.flatMap literals = [] := by
    cases key with
    | none => rfl
    | some fields => simpa using (plain_keyPieces (hkey fields rfl)).2
  show literals (Piece.commas _ ++ [Piece.words ")"]) = _
  rw [literals_append, Piece.commas, literals_intersperse, List.flatMap_append, hdefaults, hnone]
  simp [literals, Piece.literal?]

/-- **A structural statement over safe names is clean**, and the literals in it are its
defaults. -/
theorem clean_pieces {s : Ddl} (h : s.Safe) :
    Clean (s.pieces d) ∧ literals (s.pieces d) = s.defaults := by
  cases s with
  | createTable table columns key => exact clean_createTable h
  | createIndex unique name table columns =>
    have hkey := ((plain_indexKeyPieces h.2).append plain_close (opens_words _ _)).after " ("
    have hon := (hkey.name table.safe_identity (opens_words _ _)).after " ON "
    have hname := hon.name h.1 (opens_words _ _)
    cases unique with
    | false => exact hname.after "CREATE INDEX "
    | true => exact hname.after "CREATE UNIQUE INDEX "
  | addColumn table column =>
    obtain ⟨hcolumn, hliterals⟩ := ColumnClause.clean_pieces (d := d) h
    exact ⟨(hcolumn.after " ADD COLUMN ").alterTable table (opens_words _ _), hliterals⟩
  | copyColumn table target source cast =>
    cases cast with
    | none =>
      have hplain := (Plain.nil.name h.2.1 opens_nil).after " = "
      have hplain := (hplain.name h.1 (opens_words _ _)).after " SET "
      exact (hplain.name table.safe_identity (opens_words _ _)).after "UPDATE "
    | some typeName =>
      have hfree : Verbatim (" AS " ++ typeName ++ ")") :=
        (Verbatim.append (by decide) (h.2.2 typeName rfl)).append (by decide)
      have hopens : (Piece.words (" AS " ++ typeName ++ ")")).opens = true :=
        opens_append (opens_append (by decide) _) _
      have hplain := Plain.nil.words (isProper_words hfree) (Or.inr opens_nil)
      have hplain := (hplain.name h.2.1 (opens_cons hopens _)).after " = CAST("
      have hplain := (hplain.name h.1 (opens_words _ _)).after " SET "
      exact (hplain.name table.safe_identity (opens_words _ _)).after "UPDATE "
  | dropColumn table name =>
    have hplain := (Plain.nil.name h opens_nil).after " DROP COLUMN "
    exact ⟨hplain.1.alterTable table (opens_words _ _), rfl⟩
  | renameColumn table source target =>
    have hplain := (Plain.nil.name h.2 opens_nil).after " TO "
    have hplain := (hplain.name h.1 (opens_words _ _)).after " RENAME COLUMN "
    exact ⟨hplain.1.alterTable table (opens_words _ _), rfl⟩
  | retypeColumn table name typeName =>
    have hcast : Verbatim (" AS " ++ typeName ++ ")") :=
      (Verbatim.append (by decide) h.2).append (by decide)
    have htype : Verbatim (" TYPE " ++ typeName ++ " USING CAST(") :=
      (Verbatim.append (by decide) h.2).append (by decide)
    have hplain := Plain.nil.words (isProper_words hcast) (Or.inr opens_nil)
    have hplain := hplain.name h.1 (opens_cons (opens_append (opens_append (by decide) _) _) _)
    have hplain := hplain.words (isProper_words htype) (Or.inl (closes_append (by decide) _))
    have hplain := hplain.name h.1 (opens_cons (opens_append (opens_append (by decide) _) _) _)
    have hplain := hplain.after " ALTER COLUMN "
    exact ⟨hplain.1.alterTable table (opens_words _ _), rfl⟩
  | setDefault table name default =>
    cases default with
    | none =>
      have hplain : Plain [.words " DROP DEFAULT"] := Plain.nil.words (by decide) (Or.inr opens_nil)
      have hplain := (hplain.name h (opens_words _ _)).after " ALTER COLUMN "
      exact ⟨hplain.1.alterTable table (opens_words _ _), rfl⟩
    | some v =>
      have hclean := (Clean.nil.literal v opens_nil).after " SET DEFAULT "
      have hclean := (hclean.name h (opens_words _ _)).after " ALTER COLUMN "
      exact ⟨hclean.alterTable table (opens_words _ _), rfl⟩
  | addPrimaryKey table fields =>
    have hplain := (plain_keyPieces h).after " ADD "
    exact ⟨hplain.1.alterTable table (opens_words _ _), hplain.2⟩
  | dropConstraint table name =>
    have hplain := (Plain.nil.name h opens_nil).after " DROP CONSTRAINT "
    exact ⟨hplain.1.alterTable table (opens_words _ _), rfl⟩
  | dropIndex name => exact (Plain.nil.name h opens_nil).after "DROP INDEX "
  | renameTable table target =>
    have hplain := (Plain.nil.name target.safe_identity opens_nil).after " RENAME TO "
    exact ⟨hplain.1.alterTable table (opens_words _ _), rfl⟩
  | dropTable table => exact (Plain.nil.name table.safe_identity opens_nil).after "DROP TABLE "

end Ddl

/-! ## Structural queries -/

namespace Dialect

theorem verbatim_sizedName {plain sized : String} (hp : Verbatim plain) (hs : Verbatim sized)
    (size : Option UInt32) : Verbatim (sizedName plain sized size) := by
  cases size with
  | none => exact hp
  | some n => exact ((hs.append (by decide)).append (verbatim_showNat _)).append (by decide)

theorem verbatim_typeName (d : Dialect) (column : Column) : Verbatim (d.typeName column) := by
  cases d with
  | sqlite =>
    unfold typeName sqliteTypeName
    simp only
    split
    all_goals first
      | decide
      | exact verbatim_sizedName (by decide) (by decide) _
  | postgres =>
    unfold typeName postgresTypeName
    simp only
    split
    all_goals first
      | decide
      | exact verbatim_sizedName (by decide) (by decide) _

/-- The clause of a column with a safe name is safe and has the column's default. -/
theorem columnClause_ok {d : Dialect} {column : Column} {isKey : Bool} {clause : ColumnClause}
    (h : d.columnClause column isKey = .ok clause) (hname : Safe column.name) :
    clause.Safe ∧ clause.default = column.effectiveDefault := by
  cases d with
  | sqlite =>
    unfold columnClause at h
    simp only at h
    split at h
    · cases h
      have htype : Verbatim "INTEGER" := by decide
      exact ⟨⟨hname, htype⟩, rfl⟩
    · split at h
      · cases h
      · cases h
        exact ⟨⟨hname, verbatim_typeName .sqlite column⟩, rfl⟩
  | postgres =>
    cases h
    exact ⟨⟨hname, verbatim_typeName .postgres column⟩, rfl⟩

/-- Adding a column writes its default. -/
theorem addColumn_ok {d : Dialect} {table : CollectionRef} {column : Column} {s : Ddl}
    (h : d.addColumn table column = .ok s) (hname : Safe column.name) :
    s.Safe ∧ s.defaults = column.effectiveDefault.toList := by
  obtain ⟨clause, hclause, h⟩ := bind_eq_ok_iff.mp h
  cases h
  obtain ⟨hsafe, hdefault⟩ := columnClause_ok hclause hname
  exact ⟨hsafe, by rw [← hdefault]; rfl⟩

theorem safe_copyColumn (d : Dialect) (table : CollectionRef) {source : String} {column : Column}
    (hsource : Safe source) (hname : Safe column.name) :
    (d.copyColumn table source column).Safe ∧ (d.copyColumn table source column).defaults = [] := by
  cases d with
  | sqlite => exact ⟨⟨hname, hsource, by simp⟩, rfl⟩
  | postgres =>
    refine ⟨⟨hname, hsource, ?_⟩, rfl⟩
    intro typeName htype
    cases htype
    exact verbatim_typeName .postgres column

theorem replaceColumn_ok {d : Dialect} {table : CollectionRef} {source : String} {column : Column}
    {ss : List Ddl} (h : d.replaceColumn table source column = .ok ss) (hsource : Safe source)
    (hname : Safe column.name) :
    (∀ s ∈ ss, s.Safe) ∧ ss.flatMap Ddl.defaults = column.effectiveDefault.toList := by
  obtain ⟨add, hadd, h⟩ := bind_eq_ok_iff.mp h
  cases h
  obtain ⟨haddsafe, hdefaults⟩ := addColumn_ok hadd hname
  obtain ⟨hcopy, hnone⟩ := safe_copyColumn d table hsource hname
  constructor
  · simpa using ⟨haddsafe, hcopy, hsource⟩
  · have hdrop : (Ddl.dropColumn table source).defaults = [] := rfl
    simp [hdefaults, hnone, hdrop]

/-- Turning a column into another one writes the default of the other one. -/
theorem alterColumn_ok {d : Dialect} {table : CollectionRef} {source : String} {column : Column}
    {ss : List Ddl} (h : d.alterColumn table source column = .ok ss) (hsource : Safe source)
    (hname : Safe column.name) :
    (∀ s ∈ ss, s.Safe) ∧ ss.flatMap Ddl.defaults = column.effectiveDefault.toList := by
  cases d with
  | sqlite =>
    unfold alterColumn at h
    simp only at h
    split at h
    · obtain ⟨moved, hmoved, h⟩ := bind_eq_ok_iff.mp h
      cases h
      have hscratch : Safe (scratchName column.name) := hname.append (by decide)
      obtain ⟨hsafe, hdefaults⟩ := replaceColumn_ok hmoved hsource hscratch
      refine ⟨List.forall_mem_append.mpr ⟨hsafe, ?_⟩, ?_⟩
      · simpa using ⟨hscratch, hname⟩
      · rw [List.flatMap_append, hdefaults]
        simp [Ddl.defaults, Column.effectiveDefault, Column.renamed]
    · exact replaceColumn_ok h hsource hname
  | postgres =>
    cases h
    have htype := verbatim_typeName .postgres column
    unfold reshapeColumn
    refine ⟨List.forall_mem_append.mpr ⟨?_, ?_⟩, ?_⟩
    · split
      · simp
      · simpa using ⟨hsource, hname⟩
    · simpa using ⟨⟨hname, htype⟩, hname⟩
    · split <;> simp [Ddl.defaults]

end Dialect

theorem safe_createIndex (table : CollectionRef) {index : Index} (hname : Safe index.name)
    (hfields : ∀ f ∈ index.fields, Safe f) : (createIndex table index).Safe :=
  ⟨safe_indexName hname, fun c hc => hfields c.field (List.mem_map_of_mem hc)⟩

/-- The default of the column that a step defines. -/
def AlterStep.defaults : AlterStep → List Value
  | .addColumn column _ => column.effectiveDefault.toList
  | .alterColumn _ column => column.effectiveDefault.toList
  | _ => []

/-- The statements of an accepted step are safe and write the default of its column. -/
theorem AlterStep.ddl_ok {d : Dialect} {table : CollectionRef} {step : AlterStep} {ss : List Ddl}
    (hcheck : step.misuse? = none) (h : step.ddl d table = .ok ss) :
    (∀ s ∈ ss, s.Safe) ∧ ss.flatMap Ddl.defaults = step.defaults := by
  cases step with
  | addColumn column source =>
    obtain ⟨add, hadd, h⟩ := bind_eq_ok_iff.mp h
    cases h
    unfold misuse? at hcheck
    cases hcolumn : column.misuse? with
    | some m => simp [hcolumn] at hcheck
    | none =>
      simp only [hcolumn] at hcheck
      have hname := Column.safe_name hcolumn
      obtain ⟨haddsafe, hdefaults⟩ := Dialect.addColumn_ok hadd hname
      cases source with
      | none => simpa using ⟨haddsafe, hdefaults⟩
      | some source =>
        have hsource : Safe source := safe_of_misuse?_eq_none hcheck
        obtain ⟨hcopy, hnone⟩ :=
          Dialect.safe_copyColumn d table hsource hname
        simpa [hnone] using ⟨⟨haddsafe, hcopy⟩, hdefaults⟩
  | alterColumn source column =>
    unfold misuse? at hcheck
    cases hsource : Identifier.misuse? source with
    | some m => simp [hsource] at hcheck
    | none =>
      simp only [hsource] at hcheck
      exact Dialect.alterColumn_ok h (safe_of_misuse?_eq_none hsource) (Column.safe_name hcheck)
  | dropColumn name =>
    cases h
    have hname : Safe name := safe_of_misuse?_eq_none hcheck
    simpa using ⟨hname, rfl⟩
  | addIndex index =>
    obtain ⟨hname, hfields⟩ := Index.safe_names hcheck
    unfold ddl at h
    simp only at h
    split at h
    · obtain ⟨s, hs, rfl⟩ := map_eq_ok_iff.mp h
      cases d with
      | sqlite => cases hs
      | postgres =>
        cases hs
        simpa using ⟨hfields, rfl⟩
    · cases h
      have hindex := safe_createIndex table hname hfields
      simpa using ⟨hindex, rfl⟩
  | dropIndex name =>
    have hname : Safe name := safe_of_misuse?_eq_none hcheck
    unfold ddl at h
    simp only at h
    split at h
    · obtain ⟨s, hs, rfl⟩ := map_eq_ok_iff.mp h
      cases d with
      | sqlite => cases hs
      | postgres =>
        cases hs
        have hkey : Safe (table.identity ++ "_pkey") := table.safe_identity.append (by decide)
        simpa using ⟨hkey, rfl⟩
    · cases h
      have hindex : Safe (indexName table name) := safe_indexName hname
      simpa using ⟨hindex, rfl⟩
  | rename target =>
    cases h
    simpa using ⟨trivial, rfl⟩

theorem AlterStep.check_mapError_eq_ok_iff {step : AlterStep} :
    step.check.mapError Error.construction = .ok () ↔ step.misuse? = none := by
  rw [mapError_eq_ok_iff, check]
  cases step.misuse? <;> simp

/-- The statements of an alteration are safe and write the defaults of its steps. -/
theorem AlterCollection.ddlOfSteps_ok {d : Dialect} : ∀ {steps : List AlterStep}
    {table : CollectionRef} {ss : List Ddl}, ddlOfSteps d table steps = .ok ss →
      (∀ s ∈ ss, s.Safe) ∧ ss.flatMap Ddl.defaults = steps.flatMap AlterStep.defaults
  | [], _, _, h => by
    cases h
    simp
  | step :: rest, table, _, h => by
    obtain ⟨⟨⟩, hcheck, h⟩ := bind_eq_ok_iff.mp h
    obtain ⟨first, hfirst, h⟩ := bind_eq_ok_iff.mp h
    obtain ⟨more, hmore, h⟩ := bind_eq_ok_iff.mp h
    cases h
    have hstep := AlterStep.check_mapError_eq_ok_iff.mp hcheck
    obtain ⟨hsafe, hdefaults⟩ := AlterStep.ddl_ok hstep hfirst
    obtain ⟨hsafe', hdefaults'⟩ := ddlOfSteps_ok hmore
    refine ⟨List.forall_mem_append.mpr ⟨hsafe, hsafe'⟩, ?_⟩
    rw [List.flatMap_append, hdefaults, hdefaults', List.flatMap_cons]

theorem checkAll_ok {α : Type} {misuse? : α → Option Misuse} {items : List α}
    (h : checkAll misuse? items = .ok ()) : ∀ a ∈ items, misuse? a = none := by
  unfold checkAll at h
  split at h
  · cases h
  · rename_i hnone
    exact List.findSome?_eq_none_iff.mp hnone

namespace CreateCollection

theorem clauses_ok {d : Dialect} {key : Option String} : ∀ {columns : List Column}
    {cs : List ColumnClause}, clauses d key columns = .ok cs →
      (∀ c ∈ columns, Safe c.name) → (∀ c ∈ cs, c.Safe) ∧
        cs.filterMap ColumnClause.default = columns.filterMap Column.effectiveDefault
  | [], _, h, _ => by
    cases h
    simp
  | column :: r, _, h, hnames => by
    obtain ⟨clause, hclause, h⟩ := bind_eq_ok_iff.mp h
    obtain ⟨rest, hrest, h⟩ := bind_eq_ok_iff.mp h
    cases h
    rw [List.forall_mem_cons] at hnames
    obtain ⟨hsafe, hdefault⟩ := Dialect.columnClause_ok hclause hnames.1
    obtain ⟨hsafe', hdefaults⟩ := clauses_ok hrest hnames.2
    refine ⟨List.forall_mem_cons.mpr ⟨hsafe, hsafe'⟩, ?_⟩
    rw [List.filterMap_cons, List.filterMap_cons, hdefault, hdefaults]

/-- The statements of a creation are safe and write the defaults of its columns. -/
theorem ddl_ok {d : Dialect} {q : CreateCollection} {ss : List Ddl} (h : q.ddl d = .ok ss) :
    (∀ s ∈ ss, s.Safe) ∧
      ss.flatMap Ddl.defaults = q.columns.filterMap Column.effectiveDefault := by
  obtain ⟨⟨⟩, hcolumns, h⟩ := bind_eq_ok_iff.mp h
  obtain ⟨⟨⟩, hindexes, h⟩ := bind_eq_ok_iff.mp h
  split at h
  · cases h
  · obtain ⟨cs, hcs, h⟩ := bind_eq_ok_iff.mp h
    cases h
    have hindexes := checkAll_ok hindexes
    obtain ⟨hclauses, hdefaults⟩ :=
      clauses_ok hcs fun c hc => Column.safe_name (checkAll_ok hcolumns c hc)
    have hkey : ∀ fields ∈ q.keyFields?, ∀ f ∈ fields, Safe f := by
      intro fields hfields
      unfold keyFields? at hfields
      split at hfields
      · cases hfields
      · obtain ⟨i, hi, rfl⟩ := Option.map_eq_some_iff.mp hfields
        exact (Index.safe_names (hindexes i (List.mem_of_find?_eq_some hi))).2
    have hsecondary : ∀ s ∈ q.secondaryIndexes.map (createIndex q.collection),
        s.Safe ∧ s.defaults = [] := by
      intro s hs
      obtain ⟨i, hi, rfl⟩ := List.mem_map.mp hs
      obtain ⟨hname, hfields⟩ := Index.safe_names (hindexes i (List.mem_filter.mp hi).1)
      exact ⟨safe_createIndex _ hname hfields, rfl⟩
    constructor
    · exact List.forall_mem_cons.mpr ⟨⟨hclauses, hkey⟩, fun s hs => (hsecondary s hs).1⟩
    · rw [List.flatMap_cons, List.flatMap_eq_nil_iff.mpr fun s hs => (hsecondary s hs).2,
        List.append_nil]
      exact hdefaults

end CreateCollection

end SchemaMigration
