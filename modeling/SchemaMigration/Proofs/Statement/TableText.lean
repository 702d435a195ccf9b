import SchemaMigration.Proofs.Statement.IndexNames
import SchemaMigration.Proofs.Statement.Placeholders

/-!
# Tables and indexes read off their statements

What a `CREATE TABLE` and a `CREATE INDEX` define is read off their texts alone. The list behind the
name of a table is cut at the commas outside of inner parentheses, such as those around the size of
a type; every part of it is a column with its definition, or the primary key as a clause of its own.

* `Lexeme.nest?`: how deep in parentheses a list is; `tableItems?`: the items of a list.
* `tableItems?_read`: lexemes that close what they open belong to one item, by induction on them.
* `Quiet`: lexemes that close what they open and do not speak of a primary key; `quiet_literal`,
  `quiet_typeName`: defaults and types are such.
* **`Ddl.definedTable?_statement`**: a table is read back, with one item for every column and one
  for the key clause; **`Ddl.definedIndex?_statement`**: an index is read back, with its key.
-/

namespace SchemaMigration

open Lexeme

/-! ## Reading a definition -/

/-- An item in the definition of a table. -/
inductive TableItem where
  /-- A column, with what stands behind its name. -/
  | column (name : String) (definition : List Lexeme)
  /-- A primary key over fields. -/
  | key (fields : List String)

/-- A table as its statement defines it. -/
structure DefinedTable where
  /-- The name. -/
  name : String
  /-- The items, in order. -/
  items : List TableItem

/-- An index as its statement defines it. -/
structure DefinedIndex where
  /-- The index is unique. -/
  unique : Bool
  /-- The physical name. -/
  name : String
  /-- The name of the table. -/
  table : String
  /-- The fields in key order, with their directions. -/
  columns : List IndexColumn
deriving DecidableEq

/-- The direction that a keyword spells. -/
def Direction.ofKeyword? (w : String) : Option Direction :=
  [ascending, descending].find? fun direction => direction.keyword == w

namespace Lexeme

/-- How deep in parentheses a list is after a lexeme; a mark outside of them ends an item. -/
def nest? (depth : Nat) : Lexeme → Option Nat
  | .mark c =>
    if c = '(' then some (depth + 1)
    else if depth = 0 then none
    else if c = ')' then some (depth - 1)
    else some depth
  | _ => some depth

/-- The item that lexemes make up. -/
def tableItem? : List Lexeme → Option TableItem
  | .name s :: r => some (.column s r)
  | .word "PRIMARY" :: .word "KEY" :: .mark '(' :: r => do
    let (fields, rest) ← listed? name? r
    if rest.isEmpty then return .key fields else none
  | _ => none

/-- The items of a list, after the lexemes read of the first one, up to the parenthesis that ends
the list and the statement. -/
def tableItems? (depth : Nat) (read : List Lexeme) : List Lexeme → Option (List TableItem)
  | [] => none
  | s :: r =>
    match nest? depth s with
    | some inner => tableItems? inner (read ++ [s]) r
    | none =>
      if s = .mark ',' then do
        let first ← tableItem? read
        let rest ← tableItems? 0 [] r
        return first :: rest
      else if r.isEmpty then (tableItem? read).map fun last => [last]
      else none

/-- The table that a statement creates. -/
def definedTable? : List Lexeme → Option DefinedTable
  | .word "CREATE" :: .word "TABLE" :: .name s :: .mark '(' :: r =>
    (tableItems? 0 [] r).map fun items => ⟨s, items⟩
  | _ => none

/-- The key of an index, up to the parenthesis that ends it and the statement. -/
def indexColumns? : List Lexeme → Option (List IndexColumn)
  | .name s :: .word w :: .mark c :: r => do
    let direction ← Direction.ofKeyword? w
    if c = ',' then (indexColumns? r).map fun rest => ⟨s, direction⟩ :: rest
    else if r.isEmpty then return [⟨s, direction⟩]
    else none
  | _ => none

/-- The index that a statement creates, from its name on. -/
def namedIndex? (unique : Bool) : List Lexeme → Option DefinedIndex
  | .name s :: .word "ON" :: .name table :: .mark '(' :: r =>
    (indexColumns? r).map fun columns => ⟨unique, s, table, columns⟩
  | _ => none

/-- The index that a statement creates. -/
def definedIndex? : List Lexeme → Option DefinedIndex
  | .word "CREATE" :: .word "INDEX" :: r => namedIndex? false r
  | .word "CREATE" :: .word "UNIQUE" :: .word "INDEX" :: r => namedIndex? true r
  | _ => none

/-- How often lexemes say `PRIMARY KEY`. -/
def keyMarks : List Lexeme → Nat
  | [] => 0
  | s :: r =>
    (if s = .word "PRIMARY" ∧ r.head? = some (.word "KEY") then 1 else 0) + keyMarks r

end Lexeme

/-- The table that a statement creates, read off its text. -/
def Statement.definedTable? (s : Statement) : Option DefinedTable :=
  s.unbound?.bind Lexeme.definedTable?

/-- The index that a statement creates, read off its text. -/
def Statement.definedIndex? (s : Statement) : Option DefinedIndex :=
  s.unbound?.bind Lexeme.definedIndex?

/-- The column that an item defines. -/
def TableItem.column? : TableItem → Option String
  | .column s _ => some s
  | .key _ => none

/-- The primary keys that an item declares: a column declares itself as often as its definition says
so. -/
def TableItem.keys : TableItem → List (List String)
  | .column s definition => List.replicate (keyMarks definition) [s]
  | .key fields => [fields]

/-- The columns of a table, in order. -/
def DefinedTable.columns (t : DefinedTable) : List String :=
  t.items.filterMap TableItem.column?

/-- Every primary key that a table declares, inside of a column or as a clause. -/
def DefinedTable.keys (t : DefinedTable) : List (List String) :=
  t.items.flatMap TableItem.keys

/-! ## Items -/

namespace Lexeme

variable {ws r : List Lexeme}

/-- **Lexemes are read as part of an item** as long as the list stays inside of it, by induction on
the lexemes. -/
theorem tableItems?_read {depth depth' : Nat} (h : ws.foldlM nest? depth = some depth')
    (read r : List Lexeme) :
    tableItems? depth read (ws ++ r) = tableItems? depth' (read ++ ws) r := by
  induction ws generalizing depth read with
  | nil =>
    obtain rfl : depth = depth' := Option.some.inj h
    rw [List.nil_append, List.append_nil]
  | cons s ws ih =>
    rw [List.foldlM_cons] at h
    obtain ⟨inner, hinner, h⟩ := Option.bind_eq_some_iff.mp h
    rw [List.cons_append, tableItems?, hinner]
    simp only
    rw [ih h, List.append_assoc, List.singleton_append]

/-- An item of a list is read up to the comma behind it. -/
theorem tableItems?_comma {item : TableItem} (h : ws.foldlM nest? 0 = some 0)
    (hitem : tableItem? ws = some item) (r : List Lexeme) :
    tableItems? 0 [] (ws ++ Lexeme.mark ',' :: r) = (tableItems? 0 [] r).map (item :: ·) := by
  rw [tableItems?_read h, List.nil_append]
  show (tableItem? ws).bind _ = _
  rw [hitem]
  show (tableItems? 0 [] r).bind _ = _
  cases tableItems? 0 [] r <;> rfl

/-- The last item of a list is read up to the parenthesis behind it. -/
theorem tableItems?_close {item : TableItem} (h : ws.foldlM nest? 0 = some 0)
    (hitem : tableItem? ws = some item) :
    tableItems? 0 [] (ws ++ [Lexeme.mark ')']) = some [item] := by
  rw [tableItems?_read h, List.nil_append]
  show (tableItem? ws).map _ = _
  rw [hitem]
  rfl

/-- Lexemes that close what they open and do not speak of a primary key. -/
structure Quiet (ws : List Lexeme) : Prop where
  /-- The list is as deep behind them as before. -/
  closed : ws.foldlM nest? 0 = some 0
  /-- No key is mentioned. -/
  keyless : .word "PRIMARY" ∉ ws

theorem Quiet.append {vs : List Lexeme} (hv : Quiet vs) (hw : Quiet ws) : Quiet (vs ++ ws) := by
  constructor
  · rw [List.foldlM_append, hv.closed]
    exact hw.closed
  · rw [List.mem_append, not_or]
    exact ⟨hv.keyless, hw.keyless⟩

/-- Characters without a break and without the first letter of `PRIMARY` are quiet. -/
theorem quiet_bare {s : List Char} (h : ∀ c ∈ s, isBreak c = false ∧ c ≠ 'P') :
    Quiet (gather [] (s.map Token.bare)) := by
  rw [gather_word fun c hc => (h c hc).1, List.nil_append]
  constructor
  · unfold flush
    split <;> rfl
  · intro hword
    exact (h 'P' (mem_of_word_mem_flush hword (by decide))).2 rfl

theorem quiet_digits (n : Nat) : ∀ c ∈ Decimal.digits n, isBreak c = false ∧ c ≠ 'P' := by
  intro c hc
  have hdigit := List.all_eq_true.mp (Decimal.all_isDigit_digits n) c hc
  constructor
  · by_contra hbreak
    rw [isDigit_of_isBreak (eq_true_of_ne_false hbreak)] at hdigit
    cases hdigit
  · rintro rfl
    cases hdigit

/-- No character of a literal that stands outside of its quotes ends a word. -/
theorem of_bare_mem_tokens {v : Value} {c : Char} (h : Token.bare c ∈ v.tokens) :
    isBreak c = false ∧ c ≠ 'P' := by
  have hmarks : ∀ s : String, (s.toList.all fun c => !isBreak c && c != 'P') = true →
      ∀ c ∈ s.toList, isBreak c = false ∧ c ≠ 'P' := fun s h => by simpa using h
  have hplain : ∀ {s : List Char}, (∀ c ∈ s, isBreak c = false ∧ c ≠ 'P') →
      Token.bare c ∈ s.map Token.bare → isBreak c = false ∧ c ≠ 'P' := by
    intro s hs hc
    obtain ⟨c', hc', hsame⟩ := List.mem_map.mp hc
    cases hsame
    exact hs c hc'
  cases v with
  | null => exact hplain (hmarks "NULL" (by decide)) h
  | bool b =>
    cases b with
    | true => exact hplain (hmarks "TRUE" (by decide)) h
    | false => exact hplain (hmarks "FALSE" (by decide)) h
  | int n => exact hplain (forall_mem_showInt quiet_digits (by decide) _) h
  | float x =>
    exact hplain (Layout.forall_mem_write quiet_digits (hmarks _ (by decide))
      (hmarks _ (by decide)) (hmarks _ (by decide)) x fun _ => hmarks _ (by decide)) h
  | text s => simp [Value.tokens] at h
  | blob bytes =>
    obtain rfl : c = 'X' := by simpa [Value.tokens] using h
    decide

/-- **The literal of a value is quiet.** -/
theorem quiet_literal (v : Value) : Quiet (gather [] v.tokens) := by
  have hplain : v.tokens = v.literalChars.map Token.bare → Quiet (gather [] v.tokens) := by
    intro htokens
    rw [htokens]
    refine quiet_bare fun c hc => of_bare_mem_tokens (v := v) ?_
    rw [htokens]
    exact List.mem_map_of_mem hc
  cases v with
  | text s => exact ⟨rfl, by simp [Value.tokens, gather, flush]⟩
  | blob bytes => exact ⟨rfl, by simp [Value.tokens, gather, flush, isBreak]⟩
  | _ => exact hplain rfl

/-- The lexemes of a type with a size in parentheses. -/
theorem gather_sizedName (plain sized : String) (n : UInt32) :
    gather [] ((Dialect.sizedName plain sized (some n)).toList.map Token.bare) =
      gather [] (sized.toList.map Token.bare) ++
        Lexeme.mark '(' :: (flush (Decimal.digits n.toNat) ++ [Lexeme.mark ')']) := by
  have hopen : ∀ t ∈ (('(' :: (Decimal.digits n.toNat ++ [')'])).map Token.bare).head?,
      t.isBreak = true := by
    rintro t ⟨⟩
    rfl
  have hclose : ∀ t ∈ ([')'].map Token.bare).head?, t.isBreak = true := by
    rintro t ⟨⟩
    rfl
  have htext : (Dialect.sizedName plain sized (some n)).toList =
      sized.toList ++ '(' :: (Decimal.digits n.toNat ++ [')']) := by
    simp [Dialect.sizedName, Decimal.showNat]
  rw [htext, List.map_append, gather_append_of_head hopen, List.map_cons, List.map_append,
    gather_bare, if_neg (by decide), if_pos (show isBreak '(' = true by decide),
    gather_append_of_head hclose, gather_word fun c hc => (quiet_digits n.toNat c hc).1]
  rfl

/-- A type with a size in parentheses is quiet if its name is. -/
theorem quiet_sizedName {plain sized : String}
    (hplain : Quiet (gather [] (plain.toList.map Token.bare)))
    (hsized : Quiet (gather [] (sized.toList.map Token.bare))) (size : Option UInt32) :
    Quiet (gather [] ((Dialect.sizedName plain sized size).toList.map Token.bare)) := by
  cases size with
  | none => exact hplain
  | some n =>
    have hdigits : Lexeme.word "PRIMARY" ∉ flush (Decimal.digits n.toNat) := fun hword =>
      (quiet_digits n.toNat 'P' (mem_of_word_mem_flush hword (by decide))).2 rfl
    rw [gather_sizedName]
    refine hsized.append ⟨?_, by simpa using hdigits⟩
    unfold flush
    split <;> rfl

theorem quiet_typeName (d : Dialect) (column : Column) :
    Quiet (gather [] ((d.typeName column).toList.map Token.bare)) := by
  cases d with
  | sqlite =>
    unfold Dialect.typeName Dialect.sqliteTypeName
    simp only
    split
    all_goals first
      | exact ⟨by decide, by decide⟩
      | exact quiet_sizedName ⟨by decide, by decide⟩ ⟨by decide, by decide⟩ _
  | postgres =>
    unfold Dialect.typeName Dialect.postgresTypeName
    simp only
    split
    all_goals first
      | exact ⟨by decide, by decide⟩
      | exact quiet_sizedName ⟨by decide, by decide⟩ ⟨by decide, by decide⟩ _

end Lexeme

/-! ## Clauses -/

namespace Lexeme

theorem keyMarks_cons_of_ne {s : Lexeme} (h : s ≠ .word "PRIMARY") (r : List Lexeme) :
    keyMarks (s :: r) = keyMarks r := by
  rw [keyMarks, if_neg fun hs => h hs.1, Nat.zero_add]

/-- Lexemes that do not speak of a primary key are passed over. -/
theorem keyMarks_append {ws : List Lexeme} (h : .word "PRIMARY" ∉ ws) (r : List Lexeme) :
    keyMarks (ws ++ r) = keyMarks r := by
  induction ws with
  | nil => rfl
  | cons s ws ih =>
    obtain ⟨hs, hws⟩ := not_or.mp (List.mem_cons.not.mp h)
    rw [List.cons_append, keyMarks_cons_of_ne (Ne.symm hs), ih hws]

theorem Quiet.keyMarks_eq_zero {ws : List Lexeme} (h : Quiet ws) : keyMarks ws = 0 := by
  rw [← List.append_nil ws, keyMarks_append h.keyless]
  rfl

end Lexeme

namespace ColumnClause

variable (d : Dialect) (c : ColumnClause)

/-- The lexemes behind the type in a column clause. -/
def attributeLexemes : List Lexeme :=
  match d with
  | .sqlite => if c.isKey then [.word "PRIMARY", .word "KEY", .word "AUTOINCREMENT"] else []
  | .postgres =>
    (if c.generated then
      [.word "GENERATED", .word "BY", .word "DEFAULT", .word "AS", .word "IDENTITY"] else []) ++
        if c.isKey then [.word "PRIMARY", .word "KEY"] else []

/-- The lexemes behind the name in a column clause. -/
def lexemes : List Lexeme :=
  gather [] (c.typeName.toList.map Token.bare) ++
    (c.attributeLexemes d ++ unbound d 1 (defaultPieces c.default))

/-- The item of a column clause. -/
def item : TableItem :=
  .column c.name (c.lexemes d)

theorem gather_attributeWords :
    (∀ t ∈ ((c.attributeWords d).toList.map Token.bare).head?, t.isBreak = true) ∧
      gather [] ((c.attributeWords d).toList.map Token.bare) = c.attributeLexemes d := by
  unfold attributeWords attributeLexemes
  cases d with
  | sqlite =>
    simp only
    cases c.isKey <;> exact ⟨by decide, by decide⟩
  | postgres =>
    simp only
    cases c.isKey <;> cases c.generated <;> exact ⟨by decide, by decide⟩

theorem closed_attributeLexemes : (c.attributeLexemes d).foldlM nest? 0 = some 0 := by
  unfold attributeLexemes
  cases d with
  | sqlite => cases c.isKey <;> rfl
  | postgres => cases c.isKey <;> cases c.generated <;> rfl

/-- What stands behind the type says that the column is the key iff it is. -/
theorem keyMarks_attributeLexemes (r : List Lexeme) :
    keyMarks (c.attributeLexemes d ++ r) = (if c.isKey then 1 else 0) + keyMarks r := by
  unfold attributeLexemes
  cases d with
  | sqlite => cases c.isKey <;> simp [keyMarks]
  | postgres => cases c.isKey <;> cases c.generated <;> simp [keyMarks]

theorem quiet_default (default : Option Value) : Quiet (unbound d 1 (defaultPieces default)) := by
  cases default with
  | none => exact ⟨rfl, List.not_mem_nil⟩
  | some v =>
    have hword : Quiet (gather [] (" DEFAULT ".toList.map Token.bare)) := ⟨by decide, by decide⟩
    exact hword.append ((quiet_literal v).append ⟨rfl, List.not_mem_nil⟩)

theorem unbound_pieces : unbound d 1 (c.pieces d) = .name c.name :: c.lexemes d := by
  obtain ⟨hbreak, hattributes⟩ := c.gather_attributeWords d
  -- A type does not run into the attributes behind it, which start with a blank.
  have hwords : gather [] ((" " ++ c.typeName ++ c.attributeWords d).toList.map Token.bare) =
      gather [] (c.typeName.toList.map Token.bare) ++ c.attributeLexemes d := by
    rw [String.toList_append, String.toList_append, List.map_append, List.map_append,
      List.append_assoc, ← hattributes, ← gather_append_of_head hbreak]
    rfl
  show unbound d 1 (.name c.name :: .words _ :: defaultPieces c.default) = _
  rw [unbound_name, unbound_words, hwords, List.append_assoc]
  rfl

variable {c}

/-- The type of a column clause is quiet. -/
def Typed (c : ColumnClause) : Prop :=
  Quiet (gather [] (c.typeName.toList.map Token.bare))

/-- **A column clause is one item**, which declares the column as the key iff it is. -/
theorem reads_pieces (h : c.Typed) :
    (unbound d 1 (c.pieces d)).foldlM nest? 0 = some 0 ∧
      tableItem? (unbound d 1 (c.pieces d)) = some (c.item d) ∧
        (c.item d).keys = if c.isKey then [[c.name]] else [] := by
  rw [unbound_pieces]
  refine ⟨?_, rfl, ?_⟩
  · show (c.lexemes d).foldlM nest? 0 = some 0
    rw [lexemes, List.foldlM_append, h.closed, Option.bind_eq_bind, Option.bind_some,
      List.foldlM_append, c.closed_attributeLexemes d]
    exact (quiet_default d c.default).closed
  · rw [item, TableItem.keys, lexemes, keyMarks_append h.keyless, keyMarks_attributeLexemes,
      (quiet_default d c.default).keyMarks_eq_zero]
    cases c.isKey <;> rfl

end ColumnClause

/-! ## Tables -/

/-- Pieces without parameters that are read as one item. -/
structure ReadsItem (d : Dialect) (ps : List Piece) (item : TableItem) : Prop where
  /-- No placeholder stands in them. -/
  unbinding : parameters ps = []
  /-- They close what they open. -/
  closed : (unbound d 1 ps).foldlM nest? 0 = some 0
  /-- They make up the item. -/
  reads : tableItem? (unbound d 1 ps) = some item

variable {d : Dialect}

theorem ColumnClause.readsItem {c : ColumnClause} (h : c.Typed) :
    ReadsItem d (c.pieces d) (c.item d) := by
  obtain ⟨hclosed, hitem, -⟩ := ColumnClause.reads_pieces d h
  refine ⟨?_, hclosed, hitem⟩
  show parameters (defaultPieces c.default) = []
  cases c.default <;> rfl

/-- A list of names stays inside of the parentheses around it. -/
theorem nest?_names (d : Dialect) : ∀ names : List String,
    (unbound d 1 (namePieces names)).foldlM nest? 1 = some 1
  | [] => rfl
  | [s] => by
    show (unbound d 1 [Piece.name s]).foldlM nest? 1 = some 1
    rw [unbound_name]
    rfl
  | s :: s' :: names => by
    have ih := nest?_names d (s' :: names)
    show (unbound d 1 (Piece.name s :: Piece.words ", " ::
      namePieces (s' :: names))).foldlM nest? 1 = _
    rw [unbound_name, unbound_words]
    exact ih

/-- A primary key clause is one item over its fields. -/
theorem readsItem_keyPieces {fields : List String} (h : fields ≠ []) :
    ReadsItem d (keyPieces fields) (.key fields) := by
  have htext : unbound d 1 (keyPieces fields) = Lexeme.word "PRIMARY" :: Lexeme.word "KEY" ::
      Lexeme.mark '(' :: (unbound d 1 (namePieces fields) ++ [Lexeme.mark ')']) := by
    have hnone : parameters (namePieces fields) = [] := parameters_names fields
    show unbound d 1 (Piece.words "PRIMARY KEY (" :: (namePieces fields ++ [Piece.words ")"])) = _
    rw [unbound_words, unbound_append, hnone]
    rfl
  refine ⟨?_, ?_, ?_⟩
  · show parameters (namePieces fields ++ [Piece.words ")"]) = []
    rw [parameters_append]
    exact List.append_eq_nil_iff.mpr ⟨parameters_names fields, rfl⟩
  · rw [htext]
    show (unbound d 1 (namePieces fields) ++ [Lexeme.mark ')']).foldlM nest? 1 = some 0
    rw [List.foldlM_append, nest?_names]
    rfl
  · rw [htext]
    show (listed? name? (unbound d 1 (namePieces fields) ++ [Lexeme.mark ')'])).bind _ = _
    rw [namePieces, listed?_names d 1 [] h]
    rfl

/-- **The items of a list are read one by one**, by induction on the list. -/
theorem tableItems?_commas {groups : List (List Piece)} {items : List TableItem}
    (h : List.Forall₂ (ReadsItem d) groups items) (hne : groups ≠ []) :
    tableItems? 0 [] (unbound d 1 (Piece.commas groups ++ [Piece.words ")"])) = some items := by
  induction h with
  | nil => exact absurd rfl hne
  | @cons g item groups items hg hgroups ih =>
    cases hgroups with
    | nil =>
      show tableItems? 0 [] (unbound d 1 (g ++ [Piece.words ")"])) = _
      rw [unbound_append, hg.unbinding]
      exact tableItems?_close hg.closed hg.reads
    | @cons g' item' groups items hg' hgroups =>
      show tableItems? 0 [] (unbound d 1 (g ++ [Piece.words ", "] ++
        Piece.commas (g' :: groups) ++ [Piece.words ")"])) = _
      rw [List.append_assoc, List.append_assoc, unbound_append, hg.unbinding]
      refine (tableItems?_comma hg.closed hg.reads _).trans ?_
      rw [List.length_nil, Nat.add_zero]
      exact congrArg (Option.map (item :: ·)) (ih (List.cons_ne_nil g' groups))

namespace Ddl

/-- **A created table is read back**: an item for every column clause, and for the key clause. -/
theorem definedTable?_statement {table : CollectionRef} {columns : List ColumnClause}
    {key : Option (List String)} (h : (createTable table columns key).Safe)
    (hcolumns : columns ≠ []) (htyped : ∀ c ∈ columns, c.Typed)
    (hkey : ∀ fields ∈ key, fields ≠ []) :
    ((createTable table columns key).statement d).definedTable? =
      some ⟨table.identity, columns.map (ColumnClause.item d) ++ key.toList.map .key⟩ := by
  have hclauses : List.Forall₂ (ReadsItem d) (columns.map (ColumnClause.pieces d))
      (columns.map (ColumnClause.item d)) := by
    rw [List.forall₂_map_left_iff, List.forall₂_map_right_iff, List.forall₂_same]
    exact fun c hc => ColumnClause.readsItem (htyped c hc)
  have hkeys : List.Forall₂ (ReadsItem d) (key.map keyPieces).toList (key.toList.map .key) := by
    cases key with
    | none => exact .nil
    | some fields => exact .cons (readsItem_keyPieces (hkey fields rfl)) .nil
  have hitems := List.rel_append hclauses hkeys
  have hne : columns.map (ColumnClause.pieces d) ++ (key.map keyPieces).toList ≠ [] := by
    simp [hcolumns]
  have htext : unbound d 1 ((createTable table columns key).pieces d) =
      Lexeme.word "CREATE" :: Lexeme.word "TABLE" :: Lexeme.name table.identity ::
        Lexeme.mark '(' :: unbound d 1 (Piece.commas
          (columns.map (ColumnClause.pieces d) ++ (key.map keyPieces).toList) ++
            [Piece.words ")"]) := by
    show unbound d 1 (Piece.words "CREATE TABLE " :: Piece.name table.identity ::
      Piece.words " (" :: (Piece.commas _ ++ [Piece.words ")"])) = _
    rw [unbound_words, unbound_name, unbound_words]
    rfl
  rw [Statement.definedTable?, unbound?_statement h, Option.bind_some, htext]
  show (tableItems? 0 [] _).map _ = _
  rw [tableItems?_commas hitems hne]
  rfl

/-- A comma or a key in a text does not count. -/
example : (Statement.definedTable?
    ⟨"CREATE TABLE \"tag\" (\"id\" INTEGER PRIMARY KEY, \"note\" TEXT DEFAULT ', PRIMARY KEY (')",
      []⟩).map (fun t => (t.columns, t.keys)) = some (["id", "note"], [["id"]]) := by
  decide +kernel

/-- The key of an index is read back, by induction on its fields. -/
theorem indexColumns?_commas : ∀ {columns : List IndexColumn}, columns ≠ [] →
    indexColumns? (unbound d 1 (indexKeyPieces columns ++ [Piece.words ")"])) = some columns
  | [], h => absurd rfl h
  | [⟨s, direction⟩], _ => by
    show indexColumns? (unbound d 1 [Piece.name s, Piece.words (" " ++ direction.keyword),
      Piece.words ")"]) = _
    rw [unbound_name, unbound_words, unbound_words]
    cases direction <;> rfl
  | ⟨s, direction⟩ :: c :: columns, _ => by
    have ih := indexColumns?_commas (List.cons_ne_nil c columns)
    have hlater : indexColumns? (unbound d 1 (Piece.name s ::
        Piece.words (" " ++ direction.keyword) :: Piece.words ", " ::
          (indexKeyPieces (c :: columns) ++ [Piece.words ")"]))) =
          (indexColumns? (unbound d 1 (indexKeyPieces (c :: columns) ++ [Piece.words ")"]))).map
            fun rest => ⟨s, direction⟩ :: rest := by
      rw [unbound_name, unbound_words, unbound_words]
      cases direction <;> rfl
    refine hlater.trans ?_
    rw [ih]
    rfl

/-- **A created index is read back**, with its key. -/
theorem definedIndex?_statement {unique : Bool} {name : String} {table : CollectionRef}
    {columns : List IndexColumn} (h : (createIndex unique name table columns).Safe)
    (hcolumns : columns ≠ []) :
    ((createIndex unique name table columns).statement d).definedIndex? =
      some ⟨unique, name, table.identity, columns⟩ := by
  have hnamed : namedIndex? unique (unbound d 1 (Piece.name name :: Piece.words " ON " ::
      Piece.name table.identity :: Piece.words " (" ::
        (indexKeyPieces columns ++ [Piece.words ")"]))) =
          some ⟨unique, name, table.identity, columns⟩ := by
    rw [unbound_name, unbound_words, unbound_name, unbound_words]
    exact congrArg (Option.map (DefinedIndex.mk unique name table.identity))
      (indexColumns?_commas hcolumns)
  rw [Statement.definedIndex?, unbound?_statement h, Option.bind_some]
  cases unique with
  | false => exact hnamed
  | true => exact hnamed

/-- No statement creates a table and an index. -/
theorem definedTable?_createIndex {unique : Bool} {name : String} {table : CollectionRef}
    {columns : List IndexColumn} (h : (createIndex unique name table columns).Safe) :
    ((createIndex unique name table columns).statement d).definedTable? = none := by
  rw [Statement.definedTable?, unbound?_statement h, Option.bind_some]
  cases unique <;> rfl

theorem definedIndex?_createTable {table : CollectionRef} {columns : List ColumnClause}
    {key : Option (List String)} (h : (createTable table columns key).Safe) :
    ((createTable table columns key).statement d).definedIndex? = none := by
  rw [Statement.definedIndex?, unbound?_statement h, Option.bind_some]
  rfl

end Ddl

end SchemaMigration
