import SchemaMigration.Proofs.Description.Expansion
import SchemaMigration.Proofs.Statement.Placeholders

/-!
# One query in two dialects

A query on rows is written alike in both dialects, but for how placeholders are spelled and how the
window of rows is asked for at the end.

About `compile` with `SqliteDialect` and with `PostgresDialect`.

* `unnumber` spells the placeholders of a text as question marks; **`Plain.unnumber_sqlText`**: the
  text for PostgreSQL becomes the text for SQLite.
* `Dialect.window?` reads the words for a window in the way of a dialect; **`Range.window?_tail`**:
  both dialects read the window that was asked for.
* `Query.statements_eq_map_body`: the dialect of a statement on rows only shows in its placeholders
  and in its window.
* **`Query.compile_dialects`**: both dialects refuse a query with one error, or carry it out alike.
-/

namespace SchemaMigration

/-! ## Placeholders without their numbers -/

/-- The text with a question mark for every dollar sign and the digits that follow it; `numbered`
says that such digits may go on here. -/
def unnumber (numbered : Bool) : List Char → List Char
  | [] => []
  | c :: r =>
    if c = '$' then '?' :: unnumber true r
    else if numbered && Decimal.isDigit c then unnumber true r
    else c :: unnumber false r

theorem unnumber_append_of_not_mem {s : List Char} (h : '$' ∉ s) (r : List Char) :
    unnumber false (s ++ r) = s ++ unnumber false r := by
  induction s with
  | nil => rfl
  | cons c s ih =>
    rw [List.mem_cons, not_or] at h
    rw [List.cons_append, unnumber, if_neg (Ne.symm h.1), Bool.false_and, if_neg Bool.false_ne_true,
      ih h.2, List.cons_append]

/-- The digits of a number are passed over up to its end. -/
theorem unnumber_digits {s r : List Char} (h : s.all Decimal.isDigit = true)
    (hr : ∀ c ∈ r.head?, Decimal.isDigit c = false) :
    unnumber true (s ++ r) = unnumber false r := by
  induction s with
  | nil =>
    cases r with
    | nil => rfl
    | cons c r => simp [unnumber, hr c rfl]
  | cons c s ih =>
    rw [List.all_cons, Bool.and_eq_true] at h
    have hc : c ≠ '$' := by
      rintro rfl
      exact absurd h.1 (by decide)
    rw [List.cons_append, unnumber, if_neg hc, h.1, Bool.true_and, if_pos rfl, ih h.2]

/-- **The text for PostgreSQL without its numbers is the text for SQLite.** -/
theorem Plain.unnumber_sqlText : ∀ {ps : List Piece}, Plain ps → ∀ n m,
    unnumber false (sqlText .postgres n ps).toList = (sqlText .sqlite m ps).toList
  | [], _, _, _ => rfl
  | p :: ps, h, n, m => by
    obtain ⟨hclean, hliterals⟩ := h
    have htext : ∀ d k, (sqlText d k (p :: ps)).toList =
        (p.sqlText d k).toList ++ (sqlText d (positionAfter k p) ps).toList :=
      fun d k => String.toList_append
    have hproper := hclean.proper p List.mem_cons_self
    rw [htext, htext]
    cases p with
    | words w =>
      have hspecial : ∀ c ∈ w.toList, Token.isSpecial c = false := by
        simpa [Piece.isProper] using hproper
      show unnumber false (w.toList ++ (sqlText .postgres n ps).toList) = _
      rw [unnumber_append_of_not_mem (Dialect.mark_not_mem .postgres hspecial),
        unnumber_sqlText ⟨hclean.tail, hliterals⟩ n m]
      rfl
    | name name =>
      have hsafe : Identifier.Safe name := by
        simpa [Piece.isProper, Identifier.Safe] using hproper
      show unnumber false ((quoteName name).toList ++ (sqlText .postgres n ps).toList) = _
      rw [unnumber_append_of_not_mem (mark_not_mem_quoteName .postgres hsafe),
        unnumber_sqlText ⟨hclean.tail, hliterals⟩ n m]
      rfl
    | literal v => cases hliterals
    | parameter v =>
      have ih := unnumber_sqlText ⟨hclean.tail, hliterals⟩ (n + 1) (m + 1)
      have hnext : ∀ c ∈ (sqlText .postgres (n + 1) ps).toList.head?, Decimal.isDigit c = false :=
        fun c hc => isDigit_of_isBreak (hclean.head_isBreak rfl (n + 1) c hc)
      have hplace : (Dialect.placeholder .postgres n).toList = '$' :: Decimal.digits n := by
        simp [Dialect.placeholder, Decimal.showNat]
      have hmark : (Dialect.placeholder .sqlite m).toList = ['?'] := String.toList_ofList
      show unnumber false ((Dialect.placeholder .postgres n).toList ++
          (sqlText .postgres (n + 1) ps).toList) =
        (Dialect.placeholder .sqlite m).toList ++ (sqlText .sqlite (m + 1) ps).toList
      rw [hplace, hmark, List.cons_append, unnumber, if_pos rfl,
        unnumber_digits (Decimal.all_isDigit_digits n) hnext, ih]
      rfl

/-! ## Windows read back -/

/-- The rows passed over, none where there are no words for them. -/
def offset? : List Char → Option Nat
  | [] => some 0
  | s => (" OFFSET ".toList.isPrefixOf? s).bind Decimal.readNat?

namespace Dialect

/-- The most rows taken. On SQLite a limit of `-1` is none. -/
def limit? (d : Dialect) (s : List Char) : Option (Option Nat) :=
  if d = .sqlite ∧ s = "-1".toList then some none else (Decimal.readNat? s).map some

/-- The window that the last words of a statement ask for: the rows passed over, and the most rows
taken. SQLite has no offset without a limit. -/
def window? (d : Dialect) (s : List Char) : Option (Nat × Option Nat) :=
  match " LIMIT ".toList.isPrefixOf? s with
  | some r => do
    let limit ← d.limit? (r.takeWhile (· != ' '))
    let offset ← offset? (r.dropWhile (· != ' '))
    return (offset, limit)
  | none =>
    if s = [] ∨ d = .postgres then (offset? s).map fun offset => (offset, none) else none

end Dialect

theorem offset?_words (n : Nat) : offset? (" OFFSET ".toList ++ Decimal.digits n) = some n := by
  have hfront : " OFFSET ".toList.isPrefixOf? (" OFFSET ".toList ++ Decimal.digits n) =
      some (Decimal.digits n) := List.isPrefixOf?_eq_some_iff_append_eq.mpr rfl
  show (" OFFSET ".toList.isPrefixOf? (" OFFSET ".toList ++ Decimal.digits n)).bind
    Decimal.readNat? = _
  rw [hfront]
  exact Decimal.readNat?_digits n

namespace Dialect

theorem limit?_digits (d : Dialect) (n : Nat) : d.limit? (Decimal.digits n) = some (some n) := by
  have hsign : Decimal.digits n ≠ "-1".toList := by
    intro h
    have hall := Decimal.all_isDigit_digits n
    rw [h] at hall
    exact absurd hall (by decide)
  rw [limit?, if_neg fun h => hsign h.2, Decimal.readNat?_digits]
  rfl

theorem limit?_none : Dialect.sqlite.limit? "-1".toList = some none := by
  decide

/-- A limit is read up to the blank that follows it. -/
theorem window?_limit {d : Dialect} {s r : List Char} {limit : Option Nat} {offset : Nat}
    (hs : ∀ c ∈ s, (c != ' ') = true) (hr : ∀ c ∈ r.head?, (c != ' ') = false)
    (hlimit : d.limit? s = some limit) (hoffset : offset? r = some offset) :
    d.window? (" LIMIT ".toList ++ (s ++ r)) = some (offset, limit) := by
  have hfront : " LIMIT ".toList.isPrefixOf? (" LIMIT ".toList ++ (s ++ r)) = some (s ++ r) :=
    List.isPrefixOf?_eq_some_iff_append_eq.mpr rfl
  have htake : (s ++ r).takeWhile (· != ' ') = s := by
    rw [List.takeWhile_append_of_pos hs]
    cases r with
    | nil => simp
    | cons c r => simp [hr c rfl]
  have hdrop : (s ++ r).dropWhile (· != ' ') = r := by
    rw [List.dropWhile_append_of_pos hs]
    cases r with
    | nil => rfl
    | cons c r => exact List.dropWhile_cons_of_neg (by simp [hr c rfl])
  rw [window?, hfront]
  simp only [htake, hdrop, hlimit, hoffset, Option.bind_eq_bind, Option.bind_some]
  rfl

end Dialect

namespace Range

/-- The words for a window at the end of a statement. -/
def tail (d : Dialect) (r : Range) : String :=
  sqlText d 1 (r.pieces d)

theorem sqlText_pieces (d : Dialect) (r : Range) (n : Nat) :
    sqlText d n (r.pieces d) = r.tail d := by
  unfold tail pieces
  split <;> rfl

theorem pieces_full (d : Dialect) : Range.full.pieces d = [] :=
  rfl

theorem toList_tail {d : Dialect} {r : Range} (h : r.isUnbounded = false) :
    (r.tail d).toList = ' ' :: (d.windowWords r).toList := by
  have hpieces : r.pieces d = [.words (" " ++ d.windowWords r)] := by
    simp [pieces, h]
  rw [tail, hpieces]
  simp [sqlText, Piece.sqlText]

/-- **A window is read in either dialect as it was asked for.** -/
theorem window?_tail (d : Dialect) (r : Range) :
    d.window? (r.tail d).toList = some (r.offset.toNat, r.limit.map UInt64.toNat) := by
  obtain ⟨offset, limit⟩ := r
  have hblank : ∀ n, ∀ c ∈ Decimal.digits n, (c != ' ') = true := by
    intro n c hc
    have hdigit := List.all_eq_true.mp (Decimal.all_isDigit_digits n) c hc
    rw [bne_iff_ne]
    rintro rfl
    exact absurd hdigit (by decide)
  have hoffset : ∀ c ∈ (" OFFSET ".toList ++ Decimal.digits offset.toNat).head?,
      (c != ' ') = false := by
    rintro c ⟨⟩
    rfl
  by_cases hzero : offset = 0
  · subst hzero
    cases limit with
    | none =>
      have htail : (tail d ⟨0, none⟩).toList = [] := rfl
      rw [htail]
      cases d <;> rfl
    | some n =>
      have htail : (tail d ⟨0, some n⟩).toList =
          " LIMIT ".toList ++ (Decimal.digits n.toNat ++ []) := by
        rw [toList_tail rfl]
        cases d <;> simp [Dialect.windowWords, Decimal.showNat]
      rw [htail, Dialect.window?_limit (hblank _) (by simp) (d.limit?_digits _) rfl]
      rfl
  · have hpast : (offset == 0) = false := beq_eq_false_iff_ne.mpr hzero
    have hwindow : isUnbounded ⟨offset, limit⟩ = false := by
      rw [isUnbounded, hpast, Bool.false_and]
    rw [toList_tail hwindow]
    cases limit with
    | none =>
      cases d with
      | sqlite =>
        have htext : ' ' :: (Dialect.windowWords .sqlite ⟨offset, none⟩).toList =
            " LIMIT ".toList ++ ("-1".toList ++
              (" OFFSET ".toList ++ Decimal.digits offset.toNat)) := by
          simp [Dialect.windowWords, Decimal.showNat, hpast]
        have hminus : ∀ c ∈ "-1".toList, (c != ' ') = true := by simp
        rw [htext, Dialect.window?_limit hminus hoffset Dialect.limit?_none
          (offset?_words offset.toNat)]
        rfl
      | postgres =>
        have htext : ' ' :: (Dialect.windowWords .postgres ⟨offset, none⟩).toList =
            " OFFSET ".toList ++ Decimal.digits offset.toNat := by
          simp [Dialect.windowWords, Decimal.showNat]
        have hfront : " LIMIT ".toList.isPrefixOf?
            (" OFFSET ".toList ++ Decimal.digits offset.toNat) = none := by
          simp [List.isPrefixOf?]
        rw [htext, Dialect.window?, hfront]
        simp only [or_true, if_true, offset?_words, Option.map_some]
        rfl
    | some n =>
      have htext : ' ' :: (d.windowWords ⟨offset, some n⟩).toList =
          " LIMIT ".toList ++ (Decimal.digits n.toNat ++
            (" OFFSET ".toList ++ Decimal.digits offset.toNat)) := by
        cases d <;> simp [Dialect.windowWords, Decimal.showNat, hpast]
      rw [htext, Dialect.window?_limit (hblank _) hoffset (d.limit?_digits _)
        (offset?_words offset.toNat)]
      rfl

end Range

/-! ## Queries on rows -/

namespace Query

/-- The pieces of a query on rows up to its window. The other queries have none. -/
def body (vars : Variables) : Query → Except Error (List Piece)
  | .select q => q.body vars
  | .insert q => q.pieces vars
  | .update q => q.pieces vars
  | .delete q => q.pieces vars
  | _ => .ok []

/-- The query for all rows: a select loses its window. -/
def unwindowed : Query → Query
  | .select q => .select { q with range := .full }
  | q => q

theorem unwindowed_kind (q : Query) : q.unwindowed.kind = q.kind := by
  cases q <;> rfl

theorem unwindowed_collection? (q : Query) : q.unwindowed.collection? = q.collection? := by
  cases q <;> rfl

theorem unwindowed_range (q : Query) : q.unwindowed.range = .full := by
  cases q <;> rfl

theorem unwindowed_body (q : Query) (vars : Variables) : q.unwindowed.body vars = q.body vars := by
  cases q <;> rfl

variable {q : Query}

/-- The dialect of a statement on rows only shows in its placeholders and in its window. -/
theorem statements_eq_map_body (hq : q.kind.isOnRows = true) (d : Dialect) (vars : Variables) :
    q.statements d vars =
      (q.body vars).map fun ps => [Statement.ofPieces d (ps ++ q.range.pieces d)] := by
  have hfull : (fun ps => [Statement.ofPieces d (ps ++ Range.full.pieces d)]) =
      fun ps => [Statement.ofPieces d ps] := by
    funext ps
    rw [Range.pieces_full, List.append_nil]
  cases q, hq using rows_cases with
  | select q =>
    show ((q.body vars).bind fun body => .ok (body ++ q.range.pieces d)).map _ = _
    cases h : q.body vars with
    | error e => simp [body, h, Except.map, Except.bind]
    | ok ps => simp [body, h, Except.map, Except.bind, range]
  | insert q => exact congrArg (fun f => (q.pieces vars).map f) hfull.symm
  | update q => exact congrArg (fun f => (q.pieces vars).map f) hfull.symm
  | delete q => exact congrArg (fun f => (q.pieces vars).map f) hfull.symm

/-- The pieces up to the window are plain, for they are those of the query for all rows. -/
theorem plain_body (hq : q.kind.isOnRows = true) {vars : Variables} {ps : List Piece}
    (h : q.body vars = .ok ps) : Plain ps := by
  cases q, hq using rows_cases with
  | select q =>
    have hpieces : Select.pieces .sqlite vars { q with range := .full } = .ok ps :=
      bind_eq_ok_iff.mpr ⟨ps, h, congrArg Except.ok (List.append_nil ps)⟩
    exact Select.plain_pieces hpieces
  | insert q => exact Insert.plain_pieces h
  | update q => exact Update.plain_pieces h
  | delete q => exact Delete.plain_pieces h

/-- Two compiled queries, for SQLite and for PostgreSQL, carry the query out alike. Each has one
statement and both bind the same values. Without the numbers of its placeholders the second text is
the first one up to the last words; what stands before these words is the text of the query for all
rows, and the words ask, each in its dialect, for the rows of the query. -/
structure Agree (q : Query) (vars : Variables) (lite post : CompiledQuery) : Prop where
  /-- The kind is the same. -/
  kind : lite.kind = post.kind
  /-- The collection is the same. -/
  collection : lite.collection = post.collection
  /-- The window is that of the query. -/
  range : lite.range = q.range ∧ post.range = q.range
  /-- The one statement of each. -/
  statement : ∃ body values sql tail tail',
    lite.statements = [⟨body ++ tail, values⟩] ∧ post.statements = [⟨sql, values⟩] ∧
      unnumber false sql.toList = (body ++ tail').toList ∧
        q.unwindowed.compile .sqlite vars =
          .ok ⟨q.kind, q.collection?, .full, [⟨body, values⟩]⟩ ∧
          Dialect.sqlite.window? tail.toList =
            some (q.range.offset.toNat, q.range.limit.map UInt64.toNat) ∧
          Dialect.postgres.window? tail'.toList =
            some (q.range.offset.toNat, q.range.limit.map UInt64.toNat)

/-- A text with its window is the text up to the window and then the words for it. -/
theorem sql_body (d : Dialect) (ps : List Piece) (r : Range) :
    Statement.ofPieces d (ps ++ r.pieces d) = ⟨sqlText d 1 ps ++ r.tail d, parameters ps⟩ := by
  rw [Statement.ofPieces, sqlText_append, Range.sqlText_pieces, parameters_append,
    parameters_rangePieces, List.append_nil]

/-- The numbers of placeholders end before the window. -/
theorem unnumber_window {ps : List Piece} (h : Plain ps) (r : Range) :
    unnumber false (sqlText .postgres 1 ps ++ r.tail .postgres).toList =
      (sqlText .sqlite 1 ps ++ r.tail .postgres).toList := by
  have htail : r.tail .postgres = sqlText .postgres (1 + (parameters ps).length)
      (r.pieces .postgres) := (Range.sqlText_pieces _ _ _).symm
  have hlite : r.tail .postgres = sqlText .sqlite (1 + (parameters ps).length)
      (r.pieces .postgres) := by
    unfold Range.tail Range.pieces
    split <;> rfl
  obtain ⟨hplain, hopens⟩ := r.plain_pieces .postgres
  conv_lhs => rw [htail, ← sqlText_append]
  rw [hlite, ← sqlText_append]
  exact (h.append hplain hopens).unnumber_sqlText 1 1

/-- **Both dialects refuse a query on rows with the same error, or carry it out alike.** -/
theorem compile_dialects (q : Query) (vars : Variables) (hq : q.kind.isOnRows = true) :
    match q.compile .sqlite vars, q.compile .postgres vars with
    | .ok lite, .ok post => q.Agree vars lite post
    | .error e, .error e' => e = e'
    | _, _ => False := by
  have hall : q.unwindowed.kind.isOnRows = true := (unwindowed_kind q).symm ▸ hq
  have hcompile : ∀ d, q.compile d vars = (q.body vars).map fun ps =>
      ⟨q.kind, q.collection?, q.range, [⟨sqlText d 1 ps ++ q.range.tail d, parameters ps⟩]⟩ := by
    intro d
    simp only [compile, statements_eq_map_body hq, sql_body]
    cases q.body vars <;> rfl
  rw [hcompile, hcompile]
  cases h : q.body vars with
  | error e => rfl
  | ok ps =>
    have hunwindowed : q.unwindowed.compile .sqlite vars =
        .ok ⟨q.kind, q.collection?, .full, [⟨sqlText .sqlite 1 ps, parameters ps⟩]⟩ := by
      simp only [compile, statements_eq_map_body hall, unwindowed_body, unwindowed_range,
        unwindowed_kind, unwindowed_collection?, h, Range.pieces_full, List.append_nil]
      rfl
    exact ⟨rfl, rfl, ⟨rfl, rfl⟩, _, _, _, _, _, rfl, rfl,
      unnumber_window (plain_body hq h) q.range, hunwindowed, Range.window?_tail _ _,
      Range.window?_tail _ _⟩

end Query

namespace Posts

/-- The posts that were seen often or have one of two titles, all but the first five. -/
def skipping : Query :=
  .select ⟨some collection, ["id"], some (.any [.compare "views" .greater (.variable "many"),
    .inList "title" [.value (.text "$1?"), .value .null] false]), [⟨"id", .descending⟩], ⟨5, none⟩⟩

end Posts

/-- An offset without a limit is asked for in two ways. -/
theorem Query.compile_dialects_of_posts :
    ∃ lite post, Posts.skipping.compile .sqlite [("many", .int 9)] = .ok lite ∧
      Posts.skipping.compile .postgres [("many", .int 9)] = .ok post ∧
      Posts.skipping.Agree [("many", .int 9)] lite post ∧
      lite.sql = ["SELECT \"id\" FROM \"post\" WHERE \"views\" > ? OR \"title\" IN (?, ?) " ++
        "ORDER BY \"id\" DESC LIMIT -1 OFFSET 5"] ∧
      post.sql = ["SELECT \"id\" FROM \"post\" WHERE \"views\" > $1 OR \"title\" IN ($2, $3) " ++
        "ORDER BY \"id\" DESC OFFSET 5"] := by
  have hlite : ∃ cq, Posts.skipping.compile .sqlite [("many", .int 9)] = .ok cq ∧
      cq.sql = ["SELECT \"id\" FROM \"post\" WHERE \"views\" > ? OR \"title\" IN (?, ?) " ++
        "ORDER BY \"id\" DESC LIMIT -1 OFFSET 5"] := ⟨_, rfl, by decide +kernel⟩
  have hpost : ∃ cq, Posts.skipping.compile .postgres [("many", .int 9)] = .ok cq ∧
      cq.sql = ["SELECT \"id\" FROM \"post\" WHERE \"views\" > $1 OR \"title\" IN ($2, $3) " ++
        "ORDER BY \"id\" DESC OFFSET 5"] := ⟨_, rfl, by decide +kernel⟩
  obtain ⟨lite, hlite, hsql⟩ := hlite
  obtain ⟨post, hpost, hsql'⟩ := hpost
  have hagree := Query.compile_dialects Posts.skipping [("many", .int 9)] rfl
  rw [hlite, hpost] at hagree
  exact ⟨lite, post, hlite, hpost, hagree, hsql, hsql'⟩

end SchemaMigration
