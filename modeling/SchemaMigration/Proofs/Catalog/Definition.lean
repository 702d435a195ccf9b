import SchemaMigration.Proofs.Catalog.Autoincrement
import SchemaMigration.Proofs.Dialect.TypeName
import SchemaMigration.Proofs.Statement.Structural

/-!
# What is found in the definition of a table

The definition of a created table holds the clauses of its columns, and in them defaults. The clause
of a counting key is found in it. The other names, words and literals have nothing to be found, but
a text literal is searched like the rest.

* `Piece.Calm`: the piece is a text literal, or its text is tame.
* **`definesCountingInside_sqlText`**: among calm pieces a column is found in a text literal or
  nowhere, by induction on the pieces.
* `exists_of_mem_commas`: a member of a list stands between two pieces of words.
* **`Ddl.declaresCounting_of_key`**: the column whose clause holds the key is said to count up.
* **`Ddl.declaresCounting_of_calm`**: without such a clause, the text defaults decide.
-/

namespace SchemaMigration

open Text

/-! ## Literals -/

theorem mild_digits (n : Nat) : ∀ c ∈ Decimal.digits n, Mild c :=
  Decimal.forall_mem_digits (by decide) n

/-- The text of a value that is written as a text literal. -/
def Value.text? : Value → Option String
  | .text s => some s
  | _ => none

theorem Value.hexDigits_blank_free (bytes : List UInt8) :
    ∀ c ∈ hexDigits bytes, isBlank c = false := by
  have hdigit : ∀ n, n < 16 → isBlank (hexDigit n) = false := by decide
  induction bytes with
  | nil => exact List.forall_mem_nil _
  | cons b r ih =>
    have hb := b.toNat_lt
    unfold hexDigits
    rw [List.forall_mem_cons, List.forall_mem_cons]
    exact ⟨hdigit _ (by omega), hdigit _ (by omega), ih⟩

/-- A literal other than a text is tame. -/
theorem Value.tame_literalChars {v : Value} (hv : v.text? = none) : Tame v.literalChars := by
  cases v with
  | null => exact .of_ascii (by decide)
  | bool b =>
    cases b with
    | true => exact .of_ascii (by decide)
    | false => exact .of_ascii (by decide)
  | int n => exact .of_mild (forall_mem_showInt mild_digits (by decide) _)
  | float x =>
    show Tame (literalLayout.write x)
    by_cases hnan : x.isNaN = true
    · rw [Layout.write, if_pos hnan]
      exact .of_ascii (by decide)
    · refine .of_mild (Layout.forall_mem_write mild_digits ?_ ?_ ?_ x fun h => absurd h hnan)
      · exact forall_mem_of_decide (by decide)
      · exact forall_mem_of_decide (by decide)
      · exact forall_mem_of_decide (by decide)
  | text s => cases hv
  | blob bytes =>
    refine .cons (by decide) (List.forall_mem_cons.mpr ⟨rfl, List.forall_mem_append.mpr ⟨?_, ?_⟩⟩)
    · exact hexDigits_blank_free bytes
    · exact List.forall_mem_singleton.mpr rfl

/-! ## Calm pieces -/

theorem ascii_of_isRest {c : Char} (h : Identifier.isRest c = true) : c.toNat < 128 := by
  have hupper : c.isUpper = true → c.toNat < 128 := fun h =>
    (UInt32.le_iff_toNat_le.mp (of_decide_eq_true h).2).trans_lt (by decide)
  have hlower : c.isLower = true → c.toNat < 128 := fun h =>
    (UInt32.le_iff_toNat_le.mp (of_decide_eq_true (Bool.and_eq_true_iff.mp h).2)).trans_lt
      (by decide)
  have hdigit : c.isDigit = true → c.toNat < 128 := fun h =>
    (Char.isDigit_iff_toNat.mp h).2.trans_lt (by decide)
  have halphanum : c.isAlphanum = true → c.toNat < 128 := fun h =>
    (Bool.or_eq_true_iff.mp h).elim (fun h => (Bool.or_eq_true_iff.mp h).elim hupper hlower) hdigit
  simp only [Identifier.isRest, Bool.or_eq_true, beq_iff_eq] at h
  rcases h with (h | rfl) | rfl
  · exact halphanum h
  · decide
  · decide

theorem blank_of_isRest {c : Char} (h : Identifier.isRest c = true) :
    isBlank c = false ∧ c.toLower ≠ '\'' :=
  forall_ascii (P := fun c => Identifier.isRest c = true → isBlank c = false ∧ c.toLower ≠ '\'')
    (by decide +kernel) (ascii_of_isRest h) h

theorem quoteless_of_safe {name : String} (h : Identifier.Safe name) : Quoteless name.toList :=
  fun c hc => sameLetter_quote ⟨ascii_of_isRest (h c hc), (blank_of_isRest (h c hc)).2⟩

namespace Piece

/-- The text in a text literal. -/
def text? (p : Piece) : Option String :=
  p.literal?.bind Value.text?

/-- The piece is a text literal, or its text is tame. -/
def Calm (p : Piece) : Prop :=
  p.text? = none → ∀ n, Tame (p.sqlText .sqlite n).toList

theorem Calm.words {w : String} (h : Tame w.toList) : (Piece.words w).Calm :=
  fun _ _ => h

theorem Calm.name {name : String} (h : Identifier.Safe name) : (Piece.name name).Calm := by
  intro _ _
  show Tame (quoteName name).toList
  rw [toList_quoteName h]
  refine .cons (by decide) (List.forall_mem_append.mpr ⟨fun c hc => ?_, ?_⟩)
  · exact (blank_of_isRest (h c hc)).1
  · exact List.forall_mem_singleton.mpr rfl

theorem Calm.literal (v : Value) : (Piece.literal v).Calm := by
  intro hv _
  show Tame v.literal.toList
  rw [Value.literal, String.toList_ofList]
  exact Value.tame_literalChars hv

end Piece

theorem toList_sqlText_cons (n : Nat) (p : Piece) (ps : List Piece) :
    (sqlText .sqlite n (p :: ps)).toList =
      (p.sqlText .sqlite n).toList ++ (sqlText .sqlite (positionAfter n p) ps).toList :=
  String.toList_append

/-- **Among calm pieces a column is found in a text literal or nowhere.** The induction is on the
pieces; `front` is what was passed over since the last text literal. -/
theorem definesCountingInside_sqlText {name : List Char} (hname : Quoteless name) :
    ∀ {ps : List Piece}, (∀ p ∈ ps, p.Calm) → ∀ (n : Nat) {front : List Char}, Tame front →
      definesCountingInside name (front ++ (sqlText .sqlite n ps).toList) =
        (ps.filterMap Piece.text?).any fun s => definesCountingInside name s.toList
  | [], _, n, front, hfront => by
    show definesCountingInside name (front ++ []) = false
    rw [List.append_nil, hfront.definesCountingInside_eq_false]
  | p :: ps, h, n, front, hfront => by
    obtain ⟨hp, hps⟩ := List.forall_mem_cons.mp h
    rw [toList_sqlText_cons]
    cases htext : p.text? with
    | none =>
      rw [← List.append_assoc, definesCountingInside_sqlText hname hps _
        (hfront.append (hp htext n)), List.filterMap_cons_none htext]
    | some s =>
      have hliteral : (p.sqlText .sqlite n).toList = '\'' :: double '\'' s.toList ++ ['\''] := by
        obtain ⟨v, hv, hs⟩ := Option.bind_eq_some_iff.mp htext
        cases p with
        | literal w =>
          cases hv
          cases v with
          | text w =>
            cases hs
            exact String.toList_ofList
          | _ => cases hs
        | _ => cases hv
      have ih := definesCountingInside_sqlText hname hps (positionAfter n p) Tame.nil
      rw [hliteral, List.cons_append, List.cons_append, List.append_assoc,
        definesCountingInside_cut hname, hfront.definesCountingInside_eq_false, Bool.false_or,
        List.singleton_append, definesCountingInside_cut hname, definesCountingInside_double hname,
        List.filterMap_cons_some htext, List.any_cons]
      exact congrArg (_ || ·) ih

theorem declaresCounting_eq (definition name : String) : declaresCounting definition name =
    definesCountingInside name.toList (' ' :: definition.toList) :=
  rfl

/-- A calm statement is said to count a column up iff one of its text literals says so. -/
theorem declaresCounting_of_calm {name : String} (hname : Identifier.Safe name) {ps : List Piece}
    (h : ∀ p ∈ ps, p.Calm) (n : Nat) : declaresCounting (sqlText .sqlite n ps) name =
      ((literals ps).filterMap Value.text?).any fun s =>
        definesCountingInside name.toList s.toList := by
  have hblank : Tame [' '] := .of_ascii (by decide)
  have htext : ps.filterMap Piece.text? = (literals ps).filterMap Value.text? := by
    rw [literals, List.filterMap_filterMap]
    rfl
  rw [declaresCounting_eq, ← htext]
  exact definesCountingInside_sqlText (quoteless_of_safe hname) h n hblank

/-- Words that start with a character before the digits end the word before them. -/
theorem endsWord_sqlText {w : String} {c : Char} {r : List Char} (n : Nat) (hw : w.toList = c :: r)
    (hc : c.toNat < 48) (ps : List Piece) :
    endsWord (sqlText .sqlite n (.words w :: ps)).toList = true := by
  rw [toList_sqlText_cons, Piece.sqlText, hw]
  show (!isWord c) = true
  rw [isWord_of_lt hc]
  rfl

/-! ## The pieces of a creation -/

theorem forall_mem_commas {P : Piece → Prop} (hcomma : P (.words ", ")) :
    ∀ {groups : List (List Piece)}, (∀ g ∈ groups, ∀ p ∈ g, P p) → ∀ p ∈ Piece.commas groups, P p
  | [], _ => List.forall_mem_nil _
  | [g], h => h g List.mem_cons_self
  | g :: g' :: r, h => by
    obtain ⟨hg, hr⟩ := List.forall_mem_cons.mp h
    show ∀ p ∈ g ++ [Piece.words ", "] ++ Piece.commas (g' :: r), P p
    simp only [List.forall_mem_append, List.forall_mem_singleton]
    exact ⟨⟨hg, hcomma⟩, forall_mem_commas hcomma hr⟩

theorem tame_sizedName {plain sized : String} (hp : Tame plain.toList) (hs : Tame sized.toList)
    (size : Option UInt32) : Tame (Dialect.sizedName plain sized size).toList := by
  cases size with
  | none => exact hp
  | some n =>
    have hopening : Tame "(".toList := .of_ascii (by decide)
    have hclosing : Tame ")".toList := .of_ascii (by decide)
    have hdigits : Tame (Decimal.showNat n.toNat).toList := by
      rw [Decimal.showNat, String.toList_ofList]
      exact .of_mild (mild_digits _)
    simp only [Dialect.sizedName, String.toList_append]
    exact ((hs.append hopening).append hdigits).append hclosing

/-- The name of a type is tame. -/
theorem tame_typeName (c : Column) : Tame (Dialect.sqlite.typeName c).toList := by
  show Tame (Dialect.sqliteTypeName c.type c.size).toList
  unfold Dialect.sqliteTypeName
  split
  all_goals first
    | exact .of_ascii (by decide)
    | exact tame_sizedName (.of_ascii (by decide)) (.of_ascii (by decide)) _

/-- The pieces of a column clause are calm, unless the clause holds the primary key. -/
theorem ColumnClause.calm_pieces {c : ColumnClause} (hname : Identifier.Safe c.name)
    (htype : Tame c.typeName.toList) (hkey : c.isKey = false) :
    ∀ p ∈ c.pieces .sqlite, p.Calm := by
  have hwords : Tame (" " ++ c.typeName ++ c.attributeWords .sqlite).toList := by
    have hblank : Tame " ".toList := .of_ascii (by decide)
    have hnone : c.attributeWords .sqlite = "" := by
      simp [attributeWords, hkey]
    rw [hnone, String.append_empty, String.toList_append]
    exact hblank.append htype
  have hdefault : ∀ p ∈ defaultPieces c.default, p.Calm := by
    cases c.default with
    | none => exact List.forall_mem_nil _
    | some v =>
      exact List.forall_mem_cons.mpr
        ⟨.words (.of_ascii (by decide)), List.forall_mem_singleton.mpr (.literal v)⟩
  exact List.forall_mem_cons.mpr ⟨.name hname, List.forall_mem_cons.mpr ⟨.words hwords, hdefault⟩⟩

theorem calm_keyPieces {fields : List String} (h : ∀ f ∈ fields, Identifier.Safe f) :
    ∀ p ∈ keyPieces fields, p.Calm := by
  have hnames : ∀ p ∈ namePieces fields, p.Calm := by
    refine forall_mem_commas (.words (.of_ascii (by decide))) ?_
    rw [List.forall_mem_map]
    exact fun f hf => List.forall_mem_singleton.mpr (.name (h f hf))
  refine List.forall_mem_cons.mpr
    ⟨.words (.of_ascii (by decide)), List.forall_mem_append.mpr ⟨hnames, ?_⟩⟩
  exact List.forall_mem_singleton.mpr (.words (.of_ascii (by decide)))

/-- A member of a list stands between two pieces of words. -/
theorem exists_of_mem_commas {g : List Piece} : ∀ {groups : List (List Piece)}, g ∈ groups →
    ∀ opening closing : String, ∃ front before after back,
      Piece.words opening :: Piece.commas groups ++ [Piece.words closing] =
          front ++ Piece.words before :: (g ++ Piece.words after :: back) ∧
        (before = opening ∨ before = ", ") ∧ (after = closing ∨ after = ", ")
  | [], h, _, _ => absurd h List.not_mem_nil
  | [g'], h, opening, closing => by
    obtain rfl := List.mem_singleton.mp h
    exact ⟨[], opening, closing, [], rfl, .inl rfl, .inl rfl⟩
  | g' :: g'' :: r, h, opening, closing => by
    rw [show Piece.commas (g' :: g'' :: r) =
      g' ++ [Piece.words ", "] ++ Piece.commas (g'' :: r) from rfl]
    rcases List.mem_cons.mp h with rfl | h
    · refine ⟨[], opening, ", ", Piece.commas (g'' :: r) ++ [Piece.words closing], ?_, .inl rfl,
        .inr rfl⟩
      simp
    · obtain ⟨front, before, after, back, heq, hbefore, hafter⟩ :=
        exists_of_mem_commas h ", " closing
      refine ⟨.words opening :: g' ++ front, before, after, back, ?_, .inr (hbefore.elim id id),
        hafter⟩
      rw [List.append_assoc _ front, ← heq]
      simp

/-- The clause that holds the key is found behind words where a definition may start. -/
theorem ColumnClause.definesCountingInside_of_key {c : ColumnClause}
    (hname : Identifier.Safe c.name) (htype : c.typeName = "INTEGER") (hkey : c.isKey = true)
    {before : String} {s : List Char} {opening : Char} (hbefore : before.toList = s ++ [opening])
    (hopening : opensDefinition opening = true) {rest : List Piece}
    (hrest : ∀ n, endsWord (sqlText .sqlite n (defaultPieces c.default ++ rest)).toList = true)
    (front : List Char) (n : Nat) : definesCountingInside c.name.toList
      (front ++ (sqlText .sqlite n (.words before :: (c.pieces .sqlite ++ rest))).toList) =
        true := by
  have hwords : (" " ++ c.typeName ++ c.attributeWords .sqlite).toList = keyWords := by
    simp only [attributeWords, htype, hkey, if_true]
    rfl
  have htext : (sqlText .sqlite n (.words before :: (c.pieces .sqlite ++ rest))).toList =
      s ++ opening :: ('"' :: c.name.toList ++ ['"'] ++ (keyWords ++
        (sqlText .sqlite n (defaultPieces c.default ++ rest)).toList)) := by
    rw [toList_sqlText_cons, pieces, List.append_assoc, List.cons_append, toList_sqlText_cons,
      List.cons_append, toList_sqlText_cons]
    simp only [Piece.sqlText, hbefore, toList_quoteName hname, hwords, List.append_assoc,
      List.singleton_append]
    rfl
  rw [htext, ← List.append_assoc]
  exact SchemaMigration.definesCountingInside_of_key hopening (hrest n) _ _

namespace Ddl

variable {table : CollectionRef} {columns : List ColumnClause} {key : Option (List String)}

/-- The column whose clause holds the key is said to count up. -/
theorem declaresCounting_of_key (table : CollectionRef) (key : Option (List String))
    {c : ColumnClause} (hc : c ∈ columns) (hname : Identifier.Safe c.name)
    (htype : c.typeName = "INTEGER") (hkey : c.isKey = true) :
    declaresCounting ((createTable table columns key).sql .sqlite) c.name = true := by
  obtain ⟨front, before, after, back, heq, hbefore, hafter⟩ := exists_of_mem_commas
    (List.mem_append_left (key.map keyPieces).toList (List.mem_map_of_mem hc)) " (" ")"
  have hpieces : (createTable table columns key).pieces .sqlite =
      (.words "CREATE TABLE " :: tableName table :: front) ++ .words before ::
        (c.pieces .sqlite ++ .words after :: back) := by
    rw [List.cons_append, List.cons_append, ← heq]
    rfl
  have hopens : ∃ s opening, before.toList = s ++ [opening] ∧ opensDefinition opening = true := by
    rcases hbefore with rfl | rfl
    · exact ⟨[' '], '(', rfl, rfl⟩
    · exact ⟨[','], ' ', rfl, rfl⟩
  have hends : ∀ n, endsWord (sqlText .sqlite n (defaultPieces c.default ++
      .words after :: back)).toList = true := by
    intro n
    cases c.default with
    | none =>
      rcases hafter with rfl | rfl
      · exact endsWord_sqlText (c := ')') n rfl (by decide) back
      · exact endsWord_sqlText (c := ',') n rfl (by decide) back
    | some v => exact endsWord_sqlText (c := ' ') n rfl (by decide) _
  obtain ⟨s, opening, hs, hopening⟩ := hopens
  rw [declaresCounting_eq, Ddl.sql, hpieces, sqlText_append, String.toList_append,
    ← List.cons_append]
  exact c.definesCountingInside_of_key hname htype hkey hs hopening hends _ _

/-- A table without a key in a column clause is said to count a column up iff a default says so. -/
theorem declaresCounting_of_calm
    (hsafe : (createTable table columns key).Safe)
    (hcalm : ∀ c ∈ columns, Tame c.typeName.toList ∧ c.isKey = false) {name : String}
    (hname : Identifier.Safe name) :
    declaresCounting ((createTable table columns key).sql .sqlite) name =
      ((columns.filterMap ColumnClause.default).filterMap Value.text?).any fun s =>
        definesCountingInside name.toList s.toList := by
  have hgroups : ∀ g ∈ columns.map (ColumnClause.pieces .sqlite) ++ (key.map keyPieces).toList,
      ∀ p ∈ g, p.Calm := by
    rw [List.forall_mem_append, List.forall_mem_map]
    refine ⟨fun c hc => ?_, fun g hg => ?_⟩
    · exact ColumnClause.calm_pieces (hsafe.1 c hc).name (hcalm c hc).1 (hcalm c hc).2
    · obtain ⟨fields, hfields, rfl⟩ := Option.map_eq_some_iff.mp (Option.mem_toList.mp hg)
      exact calm_keyPieces (hsafe.2 fields hfields)
  have hpieces : ∀ p ∈ (createTable table columns key).pieces .sqlite, p.Calm := by
    refine List.forall_mem_append.mpr ⟨List.forall_mem_append.mpr ⟨?_, ?_⟩, ?_⟩
    · refine List.forall_mem_cons.mpr
        ⟨.words (.of_ascii (by decide)), List.forall_mem_cons.mpr ⟨?_, ?_⟩⟩
      · exact .name table.safe_identity
      · exact List.forall_mem_singleton.mpr (.words (.of_ascii (by decide)))
    · exact forall_mem_commas (.words (.of_ascii (by decide))) hgroups
    · exact List.forall_mem_singleton.mpr (.words (.of_ascii (by decide)))
  rw [Ddl.sql, SchemaMigration.declaresCounting_of_calm hname hpieces, (clean_createTable hsafe).2]

end Ddl

end SchemaMigration
