import SchemaMigration.Proofs.Description.Expansion
import SchemaMigration.Proofs.Statement.Structural

/-!
# Quotes of compiled statements

Whatever a query holds, the statements that it compiles to close every quote. Names are made of the
characters of identifiers, and nothing else stands between single quotes than the texts that the
catalog statements look for and the defaults of columns.

About everything that `compile` writes.

* `Cut`: how texts are cut at their quotes; `Clean.cut`, `cut_ddl`: those of clean pieces are.
* `Query.catalogTexts`, `Query.defaults`: the texts that a query writes between single quotes.
* **`Query.cut_compile`**: the statements of every query are cut at those texts.
-/

namespace SchemaMigration

open Identifier

/-! ## Cutting statements -/

/-- The texts close every quote, the names in them are made of the characters of identifiers, and
the single-quoted tokens are those given, each with whether it follows an `X`. -/
def Cut (sqls : List String) (texts : List (Bool × List Char)) : Prop :=
  ∃ tokens : List (List Token), sqls.map Token.tokens? = tokens.map some ∧
    (∀ ts ∈ tokens, ∀ name, .name name ∈ ts → ∀ c ∈ name, isRest c = true) ∧
      tokens.flatMap (Token.literals false) = texts

theorem Cut.nil : Cut [] [] :=
  ⟨[], rfl, by simp, rfl⟩

theorem Cut.append {sqls sqls' : List String} {texts texts' : List (Bool × List Char)}
    (h : Cut sqls texts) (h' : Cut sqls' texts') : Cut (sqls ++ sqls') (texts ++ texts') := by
  obtain ⟨tokens, hcut, hnames, hliterals⟩ := h
  obtain ⟨tokens', hcut', hnames', hliterals'⟩ := h'
  refine ⟨tokens ++ tokens', ?_, List.forall_mem_append.mpr ⟨hnames, hnames'⟩, ?_⟩
  · rw [List.map_append, List.map_append, hcut, hcut']
  · rw [List.flatMap_append, hliterals, hliterals']

/-- The text of clean pieces is cut at its names and literals. -/
theorem Clean.cut {d : Dialect} {ps : List Piece} (h : Clean ps) :
    Cut [(Statement.ofPieces d ps).sql] ((literals ps).filterMap Value.quoted?) := by
  refine ⟨[tokens d 1 ps], ?_, ?_, ?_⟩
  · show [Token.tokens? (sqlText d 1 ps)] = _
    rw [h.tokens?_sqlText]
    rfl
  · rw [List.forall_mem_singleton]
    exact fun name hname => h.isRest_of_name_mem 1 hname
  · rw [List.flatMap_singleton]
    exact h.literals_tokens 1 false fun _ _ => rfl

theorem cut_ddl (d : Dialect) : ∀ {ss : List Ddl}, (∀ s ∈ ss, s.Safe) →
    Cut ((ss.map fun s => Statement.ofPieces d (s.pieces d)).map Statement.sql)
      ((ss.flatMap Ddl.defaults).filterMap Value.quoted?)
  | [], _ => Cut.nil
  | s :: ss, h => by
    rw [List.forall_mem_cons] at h
    obtain ⟨hclean, hdefaults⟩ := Ddl.clean_pieces (d := d) h.1
    rw [List.flatMap_cons, List.filterMap_append, ← hdefaults]
    exact hclean.cut.append (cut_ddl d h.2)

/-! ## Catalog statements -/

/-- A name token is made of the characters of identifiers. -/
def Token.isSafe : Token → Bool
  | .name s => s.all isRest
  | _ => true

/-- A text of known characters is cut as they are. -/
theorem cut_of_toList {sql : String} {s : List Char} {texts : List String} (hs : sql.toList = s)
    (h : ((Token.scan .outside s).any fun ts => ts.all Token.isSafe &&
      decide (Token.literals false ts = texts.map fun t => (false, t.toList))) = true) :
    Cut [sql] (texts.map fun t => (false, t.toList)) := by
  obtain ⟨ts, hts, h⟩ := (Option.any_eq_true _ _).mp h
  simp only [Bool.and_eq_true, List.all_eq_true, decide_eq_true_eq] at h
  refine ⟨[ts], ?_, ?_, ?_⟩
  · simp [Token.tokens?, hs, hts]
  · rw [List.forall_mem_singleton]
    intro name hname
    simpa [Token.isSafe] using h.1 _ hname
  · rw [List.flatMap_singleton]
    exact h.2

/-- The characters of a text that is written in parts, the last of them. -/
theorem toList_snoc {sql : String} {s : List Char} (h : sql.toList = s) {r : List Char} :
    (sql ++ String.ofList r).toList = s ++ r := by
  rw [String.toList_append, h, String.toList_ofList]

/-- The fixed texts that a query looks for in the catalog. -/
def Query.catalogTexts (d : Dialect) : Query → List String
  | .collectionExists _ =>
    match d with
    | .sqlite => ["table"]
    | .postgres => []
  | .describeCollection _ =>
    match d with
    | .sqlite => ["index", "table"]
    | .postgres => ["", "primary"]
  | .showCollections =>
    match d with
    | .sqlite => ["table", "sqlite_%"]
    | .postgres => []
  | _ => []

namespace Dialect

theorem cut_existsStatement (d : Dialect) (c : CollectionRef) :
    Cut [(d.existsStatement c).sql]
      (((Query.collectionExists c).catalogTexts d).map fun t => (false, t.toList)) := by
  cases d with
  | sqlite =>
    have h : Cut [(existsStatement .sqlite c).sql] (["table"].map fun t => (false, t.toList)) :=
      cut_of_toList String.toList_ofList (by decide +kernel)
    exact h
  | postgres =>
    have h : Cut [(existsStatement .postgres c).sql]
        (([] : List String).map fun t => (false, t.toList)) :=
      cut_of_toList (toList_snoc String.toList_ofList) (by decide +kernel)
    exact h

theorem cut_listStatement (d : Dialect) :
    Cut [d.listStatement.sql]
      ((Query.showCollections.catalogTexts d).map fun t => (false, t.toList)) := by
  cases d with
  | sqlite => exact cut_of_toList String.toList_ofList (by decide +kernel)
  | postgres => exact cut_of_toList (toList_snoc String.toList_ofList) (by decide +kernel)

theorem cut_describeStatements (d : Dialect) (c : CollectionRef) :
    Cut ((d.describeStatements c).map Statement.sql)
      (((Query.describeCollection c).catalogTexts d).map fun t => (false, t.toList)) := by
  cases d with
  | sqlite =>
    have hcolumns : Cut [sqliteColumnsQuery] (([] : List String).map fun t => (false, t.toList)) :=
      cut_of_toList String.toList_ofList (by decide +kernel)
    have hindexes : Cut [sqliteIndexesQuery] (["index"].map fun t => (false, t.toList)) :=
      cut_of_toList (toList_snoc <| toList_snoc <| toList_snoc <| toList_snoc <| toList_snoc <|
        toList_snoc String.toList_ofList) (by decide +kernel)
    have hdefinition : Cut [sqliteDefinitionQuery] (["table"].map fun t => (false, t.toList)) :=
      cut_of_toList String.toList_ofList (by decide +kernel)
    exact hcolumns.append (hindexes.append hdefinition)
  | postgres =>
    have hcolumns : Cut [postgresColumnsQuery] ([""].map fun t => (false, t.toList)) :=
      cut_of_toList (toList_snoc <| toList_snoc <| toList_snoc <| toList_snoc <| toList_snoc <|
        toList_snoc String.toList_ofList) (by decide +kernel)
    have hindexes : Cut [postgresIndexesQuery] (["primary"].map fun t => (false, t.toList)) :=
      cut_of_toList (toList_snoc <| toList_snoc <| toList_snoc <| toList_snoc <| toList_snoc <|
        toList_snoc <| toList_snoc <| toList_snoc String.toList_ofList) (by decide +kernel)
    exact hcolumns.append hindexes

end Dialect

/-! ## Compiled queries -/

/-- The defaults of the columns that a query defines. -/
def Query.defaults : Query → List Value
  | .createCollection q => q.columns.filterMap Column.effectiveDefault
  | .alterCollection q => q.steps.flatMap AlterStep.defaults
  | _ => []

theorem Plain.cut {d : Dialect} {ps : List Piece} (h : Plain ps) :
    Cut [(Statement.ofPieces d ps).sql] [] := by
  have hcut := h.1.cut (d := d)
  rw [h.2] at hcut
  exact hcut

/-- A query on rows compiles to one statement without literals. -/
theorem cut_single {d : Dialect} {pieces : Except Error (List Piece)} {ss : List Statement}
    (h : Query.single d pieces = .ok ss) (hplain : ∀ ps, pieces = .ok ps → Plain ps) :
    Cut (ss.map Statement.sql) [] := by
  obtain ⟨ps, hps, rfl⟩ := map_eq_ok_iff.mp h
  exact (hplain ps hps).cut

theorem cut_structural {d : Dialect} {ddl : Except Error (List Ddl)} {ss : List Statement}
    {defaults : List Value} (h : Query.structural d ddl = .ok ss)
    (hsafe : ∀ ds, ddl = .ok ds → (∀ s ∈ ds, s.Safe) ∧ ds.flatMap Ddl.defaults = defaults) :
    Cut (ss.map Statement.sql) (defaults.filterMap Value.quoted?) := by
  obtain ⟨ds, hds, rfl⟩ := map_eq_ok_iff.mp h
  obtain ⟨hsafe, hdefaults⟩ := hsafe ds hds
  rw [← hdefaults]
  exact cut_ddl d hsafe

/-- **Compiled statements close every quote.** Names in them are made of ASCII letters, digits,
underscores and hyphens. Between single quotes stand the fixed texts of the catalog statements and
the text and byte defaults of columns, each of them as one token, that of bytes after an `X`. -/
theorem Query.cut_compile {q : Query} {d : Dialect} {vars : Variables} {cq : CompiledQuery}
    (h : q.compile d vars = .ok cq) :
    ∃ tokens : List (List Token), cq.sql.map Token.tokens? = tokens.map some ∧
      (∀ ts ∈ tokens, ∀ name, .name name ∈ ts → ∀ c ∈ name, isRest c = true) ∧
        tokens.flatMap (Token.literals false) =
          (q.catalogTexts d).map (fun t => (false, t.toList)) ++
            q.defaults.filterMap Value.quoted? := by
  obtain ⟨ss, hss, h⟩ := bind_eq_ok_iff.mp h
  cases h
  show Cut (ss.map Statement.sql) _
  cases q with
  | select q => exact cut_single hss fun ps hps => Select.plain_pieces hps
  | insert q => exact cut_single hss fun ps hps => Insert.plain_pieces hps
  | update q => exact cut_single hss fun ps hps => Update.plain_pieces hps
  | delete q => exact cut_single hss fun ps hps => Delete.plain_pieces hps
  | createCollection q => exact cut_structural hss fun ds hds => CreateCollection.ddl_ok hds
  | alterCollection q => exact cut_structural hss fun ds hds => AlterCollection.ddlOfSteps_ok hds
  | dropCollection c =>
    refine cut_structural hss fun ds hds => ?_
    cases hds
    exact ⟨by simp [Ddl.Safe], rfl⟩
  | collectionExists c =>
    cases hss
    simpa [defaults] using d.cut_existsStatement c
  | describeCollection c =>
    cases hss
    simpa [defaults] using d.cut_describeStatements c
  | showCollections =>
    cases hss
    simpa [defaults] using d.cut_listStatement

namespace Posts

/-- Posts get a motto with quotes in it and a seal of bytes by default. -/
def sealing : Query :=
  .alterCollection ⟨collection,
    [.addColumn ⟨"motto", .text, none, some (.text "it's \"so\""), false⟩ (some "title"),
      .alterColumn "seal" ⟨"seal", .blob, none, some (.blob [10, 255]), false⟩]⟩

theorem compile_sealing : ∃ cq, sealing.compile .sqlite [] = .ok cq :=
  ⟨_, rfl⟩

end Posts

/-- The quotes of a text default and the bytes of a byte default stay inside their tokens. -/
theorem Query.cut_compile_of_posts :
    ∃ cq, Posts.sealing.compile .sqlite [] = .ok cq ∧
      ∃ tokens : List (List Token), cq.sql.map Token.tokens? = tokens.map some ∧
        (∀ ts ∈ tokens, ∀ name, .name name ∈ ts → ∀ c ∈ name, isRest c = true) ∧
          tokens.flatMap (Token.literals false) =
            [(false, "it's \"so\"".toList), (true, "0AFF".toList)] := by
  obtain ⟨cq, h⟩ := Posts.compile_sealing
  exact ⟨cq, h, Query.cut_compile h⟩

end SchemaMigration
