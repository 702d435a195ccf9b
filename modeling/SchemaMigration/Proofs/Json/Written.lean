import Mathlib.Tactic.FinCases
import SchemaMigration.Json.Record
import SchemaMigration.Proofs.Json.Scalars

/-!
# A written document is read back down to the deepest level

The text of a value without doubles reads as that value, except that the reader keeps a bounded
number of levels: arrays and objects below them come back refused.

* `isExact` says that nothing in a value is lost in its text, `height` counts its levels, and `cut`
  keeps a number of them.
* `parseValue_write`, by induction on the value, its items and its members: the reader stops right
  after the text and gives the value cut to the levels that are left.
* `Plain` bounds the levels of a value whose text says all of it, with one lemma for each way to
  build it.
* `decodeText_render`: a decoder that is given the text of a value decodes its first `deepest`
  levels. `cut_of_height_le` and `isData_cut` say what those are, and `DecodesTo` what comes of it.
-/

namespace SchemaMigration.Json

open SchemaMigration.Decimal

mutual

/-- The text of the value says all of it. -/
def isExact : Json → Bool
  | .null => true
  | .bool _ => true
  | .int n => fitsWord n
  | .text _ => true
  | .array items => allExact items
  | .object members => membersExact members
  | _ => false

/-- The texts of the items say all of them. -/
def allExact : List Json → Bool
  | [] => true
  | j :: r => isExact j && allExact r

/-- The texts of the members say all of them. -/
def membersExact : List (String × Json) → Bool
  | [] => true
  | m :: r => isExact m.2 && membersExact r

end

mutual

/-- The number of arrays and objects that stand inside one another. -/
def height : Json → Nat
  | .array items => heightOfItems items + 1
  | .object members => heightOfMembers members + 1
  | _ => 0

/-- The height of the highest item. -/
def heightOfItems : List Json → Nat
  | [] => 0
  | j :: r => max (height j) (heightOfItems r)

/-- The height of the highest member. -/
def heightOfMembers : List (String × Json) → Nat
  | [] => 0
  | m :: r => max (height m.2) (heightOfMembers r)

end

mutual

/-- The value with its first `depth` levels; the arrays and objects below them are refused. -/
def cut (depth : Nat) : Json → Json
  | .array items => if depth = 0 then .refused else .array (cutItems (depth - 1) items)
  | .object members => if depth = 0 then .refused else .object (cutMembers (depth - 1) members)
  | j => j

/-- The items with their first `depth` levels. -/
def cutItems (depth : Nat) : List Json → List Json
  | [] => []
  | j :: r => cut depth j :: cutItems depth r

/-- The members with their first `depth` levels. -/
def cutMembers (depth : Nat) : List (String × Json) → List (String × Json)
  | [] => []
  | m :: r => (m.1, cut depth m.2) :: cutMembers depth r

end

/-! ## What the cut leaves -/

mutual

theorem cut_of_height_le : ∀ (j : Json) (depth : Nat), j.height ≤ depth → j.cut depth = j
  | .array items, depth, h => by
    have hdepth : heightOfItems items + 1 ≤ depth := h
    rw [cut, if_neg (by omega), cutItems_of_height_le items (depth - 1) (by omega)]
  | .object members, depth, h => by
    have hdepth : heightOfMembers members + 1 ≤ depth := h
    rw [cut, if_neg (by omega), cutMembers_of_height_le members (depth - 1) (by omega)]
  | .null, _, _ => rfl
  | .bool _, _, _ => rfl
  | .int _, _, _ => rfl
  | .float _, _, _ => rfl
  | .text _, _, _ => rfl
  | .refused, _, _ => rfl
  | .nameless, _, _ => rfl
  | .broken, _, _ => rfl

theorem cutItems_of_height_le :
    ∀ (items : List Json) (depth : Nat), heightOfItems items ≤ depth → cutItems depth items = items
  | [], _, _ => rfl
  | j :: r, depth, h => by
    rw [heightOfItems, Nat.max_le] at h
    rw [cutItems, cut_of_height_le j depth h.1, cutItems_of_height_le r depth h.2]

theorem cutMembers_of_height_le :
    ∀ (members : List (String × Json)) (depth : Nat), heightOfMembers members ≤ depth →
      cutMembers depth members = members
  | [], _, _ => rfl
  | (key, j) :: r, depth, h => by
    rw [heightOfMembers, Nat.max_le] at h
    rw [cutMembers, cut_of_height_le j depth h.1, cutMembers_of_height_le r depth h.2]

end

mutual

/-- What the cut leaves may be read iff nothing had to be cut off. -/
theorem isData_cut : ∀ (j : Json), j.isExact = true → ∀ depth : Nat,
    (j.cut depth).isData = decide (j.height ≤ depth)
  | .array items, h, depth => by
    have hitems : allExact items = true := h
    by_cases hdepth : depth = 0
    · subst hdepth
      simp [cut, height, isData]
    · rw [cut, if_neg hdepth, isData, allData_cutItems items hitems, height, decide_eq_decide]
      omega
  | .object members, h, depth => by
    have hmembers : membersExact members = true := h
    by_cases hdepth : depth = 0
    · subst hdepth
      simp [cut, height, isData]
    · rw [cut, if_neg hdepth, isData, membersData_cutMembers members hmembers, height,
        decide_eq_decide]
      omega
  | .null, _, _ => rfl
  | .bool _, _, _ => rfl
  | .int _, _, _ => rfl
  | .text _, _, _ => rfl
  | .float _, h, _ => by cases h
  | .refused, h, _ => by cases h
  | .nameless, h, _ => by cases h
  | .broken, h, _ => by cases h

theorem allData_cutItems : ∀ (items : List Json), allExact items = true → ∀ depth : Nat,
    allData (cutItems depth items) = decide (heightOfItems items ≤ depth)
  | [], _, _ => by simp [cutItems, allData, heightOfItems]
  | j :: r, h, depth => by
    rw [allExact, Bool.and_eq_true] at h
    rw [cutItems, allData, isData_cut j h.1, allData_cutItems r h.2, heightOfItems,
      ← Bool.decide_and, decide_eq_decide]
    exact Nat.max_le.symm

theorem membersData_cutMembers : ∀ (members : List (String × Json)),
    membersExact members = true → ∀ depth : Nat,
      membersData (cutMembers depth members) = decide (heightOfMembers members ≤ depth)
  | [], _, _ => by simp [cutMembers, membersData, heightOfMembers]
  | (key, j) :: r, h, depth => by
    rw [membersExact, Bool.and_eq_true] at h
    rw [cutMembers, membersData, isData_cut j h.1, membersData_cutMembers r h.2, heightOfMembers,
      ← Bool.decide_and, decide_eq_decide]
    exact Nat.max_le.symm

end

mutual

/-- The cut leaves well-formed text. -/
theorem isWhole_cut : ∀ (j : Json), j.isExact = true → ∀ depth : Nat, (j.cut depth).isWhole = true
  | .array items, h, depth => by
    have hitems : allExact items = true := h
    rw [cut]
    split
    · rfl
    · exact allWhole_cutItems items hitems (depth - 1)
  | .object members, h, depth => by
    have hmembers : membersExact members = true := h
    rw [cut]
    split
    · rfl
    · exact membersWhole_cutMembers members hmembers (depth - 1)
  | .null, _, _ => rfl
  | .bool _, _, _ => rfl
  | .int _, _, _ => rfl
  | .text _, _, _ => rfl
  | .float _, h, _ => by cases h
  | .refused, h, _ => by cases h
  | .nameless, h, _ => by cases h
  | .broken, h, _ => by cases h

theorem allWhole_cutItems : ∀ (items : List Json), allExact items = true → ∀ depth : Nat,
    allWhole (cutItems depth items) = true
  | [], _, _ => rfl
  | j :: r, h, depth => by
    rw [allExact, Bool.and_eq_true] at h
    rw [cutItems, allWhole, isWhole_cut j h.1, allWhole_cutItems r h.2, Bool.and_self]

theorem membersWhole_cutMembers : ∀ (members : List (String × Json)),
    membersExact members = true → ∀ depth : Nat, membersWhole (cutMembers depth members) = true
  | [], _, _ => rfl
  | (key, j) :: r, h, depth => by
    rw [membersExact, Bool.and_eq_true] at h
    rw [cutMembers, membersWhole, isWhole_cut j h.1, membersWhole_cutMembers r h.2, Bool.and_self]

end

/-! ## Values of few levels -/

theorem allExact_iff {items : List Json} :
    allExact items = true ↔ ∀ j ∈ items, j.isExact = true := by
  induction items with
  | nil => simp [allExact]
  | cons j r ih => simp [allExact, ih]

theorem membersExact_iff {members : List (String × Json)} :
    membersExact members = true ↔ ∀ m ∈ members, m.2.isExact = true := by
  induction members with
  | nil => simp [membersExact]
  | cons m r ih => simp [membersExact, ih]

theorem heightOfItems_le_iff {items : List Json} {n : Nat} :
    heightOfItems items ≤ n ↔ ∀ j ∈ items, j.height ≤ n := by
  induction items with
  | nil => simp [heightOfItems]
  | cons j r ih => simp [heightOfItems, ih]

theorem heightOfMembers_le_iff {members : List (String × Json)} {n : Nat} :
    heightOfMembers members ≤ n ↔ ∀ m ∈ members, m.2.height ≤ n := by
  induction members with
  | nil => simp [heightOfMembers]
  | cons m r ih => simp [heightOfMembers, ih]

theorem height_object_le_iff {members : List (String × Json)} {n : Nat} :
    height (.object members) ≤ n + 1 ↔ ∀ m ∈ members, m.2.height ≤ n :=
  Nat.succ_le_succ_iff.trans heightOfMembers_le_iff

/-- The text of the value says all of it, in at most so many levels. -/
structure Plain (levels : Nat) (j : Json) : Prop where
  /-- Nothing is lost in the text. -/
  exact : j.isExact = true
  /-- The levels suffice. -/
  height_le : j.height ≤ levels

@[simp]
theorem plain_null (n : Nat) : Plain n .null := ⟨rfl, Nat.zero_le n⟩

@[simp]
theorem plain_bool (n : Nat) (b : Bool) : Plain n (.bool b) := ⟨rfl, Nat.zero_le n⟩

@[simp]
theorem plain_text (n : Nat) (s : String) : Plain n (.text s) := ⟨rfl, Nat.zero_le n⟩

theorem plain_textOption (n : Nat) (s : Option String) : Plain n ((s.map text).getD .null) := by
  cases s
  · exact plain_null n
  · exact plain_text n _

theorem plain_int {k : Int} (h : fitsWord k = true) (n : Nat) : Plain n (.int k) :=
  ⟨h, Nat.zero_le n⟩

theorem plain_nat {k : Nat} (h : k ≤ greatestWord) (n : Nat) : Plain n (.int k) := by
  refine plain_int ?_ n
  simp only [fitsWord, Bool.and_eq_true, decide_eq_true_eq]
  omega

namespace Plain

theorem mono {m n : Nat} {j : Json} (h : Plain m j) (hmn : m ≤ n) : Plain n j :=
  ⟨h.exact, h.height_le.trans hmn⟩

theorem array {n : Nat} {items : List Json} (h : ∀ j ∈ items, Plain n j) :
    Plain (n + 1) (.array items) :=
  ⟨allExact_iff.mpr fun j hj => (h j hj).exact,
    Nat.succ_le_succ (heightOfItems_le_iff.mpr fun j hj => (h j hj).height_le)⟩

theorem object {n : Nat} {members : List (String × Json)} (h : ∀ m ∈ members, Plain n m.2) :
    Plain (n + 1) (.object members) :=
  ⟨membersExact_iff.mpr fun m hm => (h m hm).exact,
    Nat.succ_le_succ (heightOfMembers_le_iff.mpr fun m hm => (h m hm).height_le)⟩

/-- Items that are written one by one. -/
theorem map {α : Type} {n : Nat} {write : α → Json} {as : List α}
    (h : ∀ a ∈ as, Plain n (write a)) : Plain (n + 1) (.array (as.map write)) :=
  array (List.forall_mem_map.mpr h)

theorem cut_eq {levels depth : Nat} {j : Json} (h : Plain levels j) (hdepth : levels ≤ depth) :
    j.cut depth = j :=
  cut_of_height_le j depth (h.height_le.trans hdepth)

/-- All of the value may be read. -/
theorem isData {n : Nat} {j : Json} (h : Plain n j) : j.isData = true := by
  have hcut := isData_cut j h.exact n
  rwa [h.cut_eq (Nat.le_refl n), decide_eq_true h.height_le] at hcut

end Plain

/-! ## One member that may be of many levels -/

section Beside

variable {n : Nat} {before after : List (String × Json)} {key : String} {j : Json}

theorem isExact_beside (hbefore : ∀ m ∈ before, Plain n m.2) (hafter : ∀ m ∈ after, Plain n m.2)
    (hj : j.isExact = true) : isExact (.object (before ++ (key, j) :: after)) = true := by
  refine membersExact_iff.mpr fun m hm => ?_
  rcases List.mem_append.mp hm with hm | hm
  · exact (hbefore m hm).exact
  · rcases List.mem_cons.mp hm with rfl | hm
    · exact hj
    · exact (hafter m hm).exact

theorem height_beside_le_iff (hbefore : ∀ m ∈ before, Plain n m.2)
    (hafter : ∀ m ∈ after, Plain n m.2) :
    height (.object (before ++ (key, j) :: after)) ≤ n + 1 ↔ j.height ≤ n := by
  rw [height_object_le_iff, List.forall_mem_append, List.forall_mem_cons]
  exact ⟨fun h => h.2.1, fun h =>
    ⟨fun m hm => (hbefore m hm).height_le, h, fun m hm => (hafter m hm).height_le⟩⟩

theorem cutMembers_append (depth : Nat) (ms ns : List (String × Json)) :
    cutMembers depth (ms ++ ns) = cutMembers depth ms ++ cutMembers depth ns := by
  induction ms with
  | nil => rfl
  | cons m r ih => rw [List.cons_append, cutMembers, ih, cutMembers, List.cons_append]

/-- The cut goes through one member only. -/
theorem cut_beside (hbefore : ∀ m ∈ before, Plain n m.2) (hafter : ∀ m ∈ after, Plain n m.2) :
    cut (n + 1) (.object (before ++ (key, j) :: after)) =
      .object (before ++ (key, j.cut n) :: after) := by
  have hkept : ∀ {ms : List (String × Json)}, (∀ m ∈ ms, Plain n m.2) → cutMembers n ms = ms :=
    fun h => cutMembers_of_height_le _ n
      (heightOfMembers_le_iff.mpr fun m hm => (h m hm).height_le)
  rw [cut, if_neg (Nat.succ_ne_zero n), Nat.add_sub_cancel, cutMembers_append, hkept hbefore,
    cutMembers, hkept hafter]

end Beside

/-! ## The reader on written text -/

/-- The characters with which the text of a value begins. -/
def openings : List Char :=
  '"' :: '[' :: '{' :: 't' :: 'f' :: 'n' :: '-' :: (List.range 10).map digitChar

theorem write_eq_cons {j : Json} (h : j.isExact = true) :
    ∃ c r, j.write = c :: r ∧ c ∈ openings := by
  cases j with
  | null => exact ⟨'n', "ull".toList, rfl, by decide⟩
  | bool b =>
    cases b
    · exact ⟨'f', "alse".toList, rfl, by decide⟩
    · exact ⟨'t', "rue".toList, rfl, by decide⟩
  | int n =>
    obtain ⟨c, r, htext⟩ := List.exists_cons_of_ne_nil (showInt_ne_nil n)
    have hc : c ∈ '-' :: (List.range 10).map digitChar :=
      mem_of_mem_showInt (n := n) (by rw [htext]; exact List.mem_cons_self)
    refine ⟨c, r, by rw [write, htext], ?_⟩
    simp only [openings, List.mem_cons] at hc ⊢
    tauto
  | text s => exact ⟨'"', _, rfl, by decide⟩
  | array items => exact ⟨'[', _, rfl, by decide⟩
  | object members => exact ⟨'{', _, rfl, by decide⟩
  | float x => cases h
  | refused => cases h
  | nameless => cases h
  | broken => cases h

theorem length_write_pos {j : Json} (h : j.isExact = true) : 0 < j.write.length := by
  obtain ⟨c, r, htext, -⟩ := write_eq_cons h
  rw [htext]
  exact Nat.succ_pos _

/-- No blank stands before the text of a value, and no closing bracket begins it. -/
theorem skipSpace_write {j : Json} (h : j.isExact = true) (rest : List Char) :
    skipSpace (j.write ++ rest) = j.write ++ rest ∧ ∀ t, j.write ++ rest ≠ ']' :: t := by
  obtain ⟨c, r, htext, hc⟩ := write_eq_cons h
  have hall : ∀ c ∈ openings, isSpace c = false ∧ c ≠ ']' :=
    Text.forall_mem_of_decide (by decide)
  rw [htext]
  constructor
  · rw [skipSpace, List.cons_append, List.dropWhile_cons_of_neg (by simp [(hall c hc).1])]
  · intro t ht
    exact (hall c hc).2 (List.cons.inj ht).1

/-- A number is read where one begins. -/
theorem parseValue_number {c : Char} (hc : c ∈ '-' :: (List.range 10).map digitChar)
    (fuel depth : Nat) {r rest : List Char} {number : NumberText}
    (hread : readNumber? (c :: r) = some (number, rest)) :
    parseValue (fuel + 1) depth (c :: r) = (number.value, rest) := by
  have hskip : skipSpace (c :: r) = c :: r := by fin_cases hc <;> rfl
  rw [parseValue, hskip]
  split
  case h_8 => rw [hread]
  case h_1 heq => cases heq
  -- every other value begins with a character that begins no number
  all_goals
    rename_i heq
    cases heq
    exact absurd hc (by decide)

theorem parseValue_quote (fuel depth : Nat) (cs rest : List Char) :
    parseValue (fuel + 1) depth ('"' :: (cs.flatMap writeChar ++ '"' :: rest)) =
      (.text (String.ofList cs), rest) := by
  have hskip : skipSpace ('"' :: (cs.flatMap writeChar ++ '"' :: rest)) =
      '"' :: (cs.flatMap writeChar ++ '"' :: rest) := rfl
  rw [parseValue, hskip]
  simp only [stringBody?_flatMap_writeChar]
  rfl

theorem parseValue_emptyArray (fuel depth : Nat) (rest : List Char) :
    parseValue (fuel + 1) depth ('[' :: ']' :: rest) = (shallow depth (.array []), rest) := rfl

theorem parseValue_array (fuel depth : Nat) {s : List Char} (hspace : skipSpace s = s)
    (hopen : ∀ t, s ≠ ']' :: t) :
    parseValue (fuel + 1) depth ('[' :: s) =
      (shallow depth (.array (parseItems fuel (depth - 1) s).1),
        (parseItems fuel (depth - 1) s).2) := by
  have hskip : skipSpace ('[' :: s) = '[' :: s := rfl
  rw [parseValue, hskip]
  simp only [hspace]

theorem parseValue_emptyObject (fuel depth : Nat) (rest : List Char) :
    parseValue (fuel + 1) depth ('{' :: '}' :: rest) = (shallow depth (.object []), rest) := rfl

theorem parseValue_object (fuel depth : Nat) (s : List Char) :
    parseValue (fuel + 1) depth ('{' :: '"' :: s) =
      (shallow depth (.object (parseMembers fuel (depth - 1) ('"' :: s)).1),
        (parseMembers fuel (depth - 1) ('"' :: s)).2) := rfl

theorem parseItems_last {fuel depth : Nat} {s r : List Char} {j : Json}
    (hvalue : parseValue fuel depth s = (j, ']' :: r)) (hwhole : j.isWhole = true) :
    parseItems (fuel + 1) depth s = ([j], r) := by
  rw [parseItems, hvalue]
  simp only [hwhole, if_true]
  rfl

theorem parseItems_cons {fuel depth : Nat} {s r : List Char} {j : Json}
    (hvalue : parseValue fuel depth s = (j, ',' :: r)) (hwhole : j.isWhole = true) :
    parseItems (fuel + 1) depth s =
      (j :: (parseItems fuel depth r).1, (parseItems fuel depth r).2) := by
  rw [parseItems, hvalue]
  simp only [hwhole, if_true]
  rfl

theorem parseMembers_last {fuel depth : Nat} {key s r : List Char} {j : Json}
    (hvalue : parseValue fuel depth s = (j, '}' :: r)) (hwhole : j.isWhole = true) :
    parseMembers (fuel + 1) depth ('"' :: (key.flatMap writeChar ++ '"' :: ':' :: s)) =
      ([(String.ofList key, j)], r) := by
  have hskip : skipSpace ('"' :: (key.flatMap writeChar ++ '"' :: ':' :: s)) =
      '"' :: (key.flatMap writeChar ++ '"' :: ':' :: s) := rfl
  have hcolon : skipSpace (':' :: s) = ':' :: s := rfl
  rw [parseMembers, hskip]
  simp only [stringBody?_flatMap_writeChar, hcolon, hvalue, hwhole, if_true]
  rfl

theorem parseMembers_cons {fuel depth : Nat} {key s r : List Char} {j : Json}
    (hvalue : parseValue fuel depth s = (j, ',' :: r)) (hwhole : j.isWhole = true) :
    parseMembers (fuel + 1) depth ('"' :: (key.flatMap writeChar ++ '"' :: ':' :: s)) =
      ((String.ofList key, j) :: (parseMembers fuel depth r).1, (parseMembers fuel depth r).2) := by
  have hskip : skipSpace ('"' :: (key.flatMap writeChar ++ '"' :: ':' :: s)) =
      '"' :: (key.flatMap writeChar ++ '"' :: ':' :: s) := rfl
  have hcolon : skipSpace (':' :: s) = ':' :: s := rfl
  rw [parseMembers, hskip]
  simp only [stringBody?_flatMap_writeChar, hcolon, hvalue, hwhole, if_true]
  rfl

/-- A container is refused below the deepest level and kept above it. -/
theorem shallow_array {items : List Json} (h : allExact items = true) (depth : Nat) :
    shallow depth (.array (cutItems (depth - 1) items)) = cut depth (.array items) := by
  have hwhole : isWhole (.array (cutItems (depth - 1) items)) = true :=
    allWhole_cutItems items h (depth - 1)
  simp only [shallow, cut, hwhole, and_true]

theorem shallow_object {members : List (String × Json)} (h : membersExact members = true)
    (depth : Nat) :
    shallow depth (.object (cutMembers (depth - 1) members)) = cut depth (.object members) := by
  have hwhole : isWhole (.object (cutMembers (depth - 1) members)) = true :=
    membersWhole_cutMembers members h (depth - 1)
  simp only [shallow, cut, hwhole, and_true]

theorem skipSpace_writeItems {j : Json} {r : List Json} (h : allExact (j :: r) = true)
    (rest : List Char) :
    skipSpace (writeItems (j :: r) ++ rest) = writeItems (j :: r) ++ rest ∧
      ∀ t, writeItems (j :: r) ++ rest ≠ ']' :: t := by
  rw [allExact, Bool.and_eq_true] at h
  cases r with
  | nil => exact skipSpace_write h.1 rest
  | cons k r =>
    rw [writeItems, List.append_assoc]
    exact skipSpace_write h.1 _

theorem writeMembers_singleton (key : String) (j : Json) (rest : List Char) :
    writeMembers [(key, j)] ++ rest =
      '"' :: (key.toList.flatMap writeChar ++ '"' :: ':' :: (j.write ++ rest)) := by
  simp [writeMembers, writeString]

theorem writeMembers_cons (key : String) (j : Json) (n : String × Json)
    (r : List (String × Json)) (rest : List Char) :
    writeMembers ((key, j) :: n :: r) ++ rest =
      '"' :: (key.toList.flatMap writeChar ++ '"' :: ':' ::
        (j.write ++ ',' :: (writeMembers (n :: r) ++ rest))) := by
  simp [writeMembers, writeString]

theorem writeMembers_eq_quote (m : String × Json) (r : List (String × Json)) :
    ∃ s, writeMembers (m :: r) = '"' :: s := by
  cases r with
  | nil => exact ⟨_, by rw [writeMembers, writeString]; rfl⟩
  | cons n r => exact ⟨_, by rw [writeMembers, writeString]; rfl⟩

mutual

/-- **The reader stops right after the text of a value and gives the value cut to the levels that
are left.** -/
theorem parseValue_write : ∀ (j : Json), j.isExact = true → ∀ (fuel depth : Nat)
    (rest : List Char), 2 * j.write.length ≤ fuel + 1 → EndsNumber rest →
      parseValue fuel depth (j.write ++ rest) = (j.cut depth, rest)
  | j, hexact, 0, _, _, hfuel, _ => by
    have hlength := length_write_pos hexact
    omega
  | .null, _, fuel + 1, depth, rest, _, _ => rfl
  | .bool true, _, fuel + 1, depth, rest, _, _ => rfl
  | .bool false, _, fuel + 1, depth, rest, _, _ => rfl
  | .int n, hfits, fuel + 1, depth, rest, _, hrest => by
    obtain ⟨c, r, htext⟩ := List.exists_cons_of_ne_nil (showInt_ne_nil n)
    have hc : c ∈ '-' :: (List.range 10).map digitChar :=
      mem_of_mem_showInt (n := n) (by rw [htext]; exact List.mem_cons_self)
    have hread := readNumber?_showInt n hrest
    rw [htext, List.cons_append] at hread
    rw [write, htext, List.cons_append, parseValue_number hc fuel depth hread, value_ofInt hfits]
    rfl
  | .text s, _, fuel + 1, depth, rest, _, _ => by
    rw [write, writeString, List.cons_append, List.cons_append, List.append_assoc]
    exact (parseValue_quote fuel depth s.toList rest).trans (by rw [String.ofList_toList]; rfl)
  | .array [], _, fuel + 1, depth, rest, _, _ =>
    (parseValue_emptyArray fuel depth rest).trans (by rw [← shallow_array rfl]; rfl)
  | .array (j :: r), hexact, fuel + 1, depth, rest, hfuel, _ => by
    have hitems : allExact (j :: r) = true := hexact
    have hlength : 2 * (writeItems (j :: r)).length ≤ fuel := by
      rw [write, List.length_append, List.length_cons, List.length_singleton] at hfuel
      omega
    have hread := parseItems_writeItems (j :: r) (List.cons_ne_nil j r) hitems fuel (depth - 1)
      rest hlength
    obtain ⟨hspace, hopen⟩ := skipSpace_writeItems hitems (']' :: rest)
    rw [write, List.cons_append, List.cons_append, List.append_assoc, List.singleton_append,
      parseValue_array fuel depth hspace hopen, hread, shallow_array hitems]
  | .object [], _, fuel + 1, depth, rest, _, _ =>
    (parseValue_emptyObject fuel depth rest).trans (by rw [← shallow_object rfl]; rfl)
  | .object (m :: r), hexact, fuel + 1, depth, rest, hfuel, _ => by
    have hmembers : membersExact (m :: r) = true := hexact
    have hlength : 2 * (writeMembers (m :: r)).length ≤ fuel := by
      rw [write, List.length_append, List.length_cons, List.length_singleton] at hfuel
      omega
    have hread := parseMembers_writeMembers (m :: r) (List.cons_ne_nil m r) hmembers fuel
      (depth - 1) rest hlength
    obtain ⟨s, hs⟩ := writeMembers_eq_quote m r
    rw [hs] at hread
    rw [write, hs, List.cons_append, List.cons_append, List.append_assoc, List.singleton_append]
    rw [List.cons_append] at hread
    rw [List.cons_append, parseValue_object, hread, shallow_object hmembers]
  | .float _, h, _, _, _, _, _ => by cases h
  | .refused, h, _, _, _, _, _ => by cases h
  | .nameless, h, _, _, _, _, _ => by cases h
  | .broken, h, _, _, _, _, _ => by cases h

theorem parseItems_writeItems : ∀ (items : List Json), items ≠ [] → allExact items = true →
    ∀ (fuel depth : Nat) (rest : List Char), 2 * (writeItems items).length ≤ fuel →
      parseItems fuel depth (writeItems items ++ ']' :: rest) = (cutItems depth items, rest)
  | [], hne, _, _, _, _, _ => absurd rfl hne
  | [j], _, hexact, fuel, depth, rest, hfuel => by
    rw [allExact, Bool.and_eq_true] at hexact
    rw [writeItems] at hfuel ⊢
    have hlength := length_write_pos hexact.1
    obtain ⟨fuel, rfl⟩ := Nat.exists_eq_add_one_of_ne_zero (n := fuel) (by omega)
    have hvalue := parseValue_write j hexact.1 fuel depth (']' :: rest) (by omega)
      (endsNumber_bracket rest)
    exact parseItems_last hvalue (isWhole_cut j hexact.1 depth)
  | j :: k :: r, _, hexact, fuel, depth, rest, hfuel => by
    rw [allExact, Bool.and_eq_true] at hexact
    rw [writeItems, List.length_append, List.length_cons] at hfuel
    rw [writeItems, List.append_assoc, List.cons_append]
    obtain ⟨fuel, rfl⟩ := Nat.exists_eq_add_one_of_ne_zero (n := fuel) (by omega)
    have hvalue := parseValue_write j hexact.1 fuel depth
      (',' :: (writeItems (k :: r) ++ ']' :: rest)) (by omega) (endsNumber_comma _)
    have hrest := parseItems_writeItems (k :: r) (List.cons_ne_nil k r) hexact.2 fuel depth rest
      (by omega)
    rw [parseItems_cons hvalue (isWhole_cut j hexact.1 depth), hrest]
    rfl

theorem parseMembers_writeMembers : ∀ (members : List (String × Json)), members ≠ [] →
    membersExact members = true → ∀ (fuel depth : Nat) (rest : List Char),
      2 * (writeMembers members).length ≤ fuel →
        parseMembers fuel depth (writeMembers members ++ '}' :: rest) =
          (cutMembers depth members, rest)
  | [], hne, _, _, _, _, _ => absurd rfl hne
  | [(key, j)], _, hexact, fuel, depth, rest, hfuel => by
    rw [membersExact, Bool.and_eq_true] at hexact
    rw [writeMembers, List.length_append, List.length_cons] at hfuel
    dsimp only at hfuel
    rw [writeMembers_singleton]
    obtain ⟨fuel, rfl⟩ := Nat.exists_eq_add_one_of_ne_zero (n := fuel) (by omega)
    have hvalue := parseValue_write j hexact.1 fuel depth ('}' :: rest) (by omega)
      (endsNumber_brace rest)
    rw [parseMembers_last hvalue (isWhole_cut j hexact.1 depth), String.ofList_toList]
    rfl
  | (key, j) :: n :: r, _, hexact, fuel, depth, rest, hfuel => by
    rw [membersExact, Bool.and_eq_true] at hexact
    rw [writeMembers, List.length_append, List.length_append, List.length_cons,
      List.length_cons] at hfuel
    dsimp only at hfuel
    rw [writeMembers_cons]
    obtain ⟨fuel, rfl⟩ := Nat.exists_eq_add_one_of_ne_zero (n := fuel) (by omega)
    have hvalue := parseValue_write j hexact.1 fuel depth
      (',' :: (writeMembers (n :: r) ++ '}' :: rest)) (by omega) (endsNumber_comma _)
    have hrest := parseMembers_writeMembers (n :: r) (List.cons_ne_nil n r) hexact.2 fuel depth
      rest (by omega)
    rw [parseMembers_cons hvalue (isWhole_cut j hexact.1 depth), hrest, String.ofList_toList]
    rfl

end

theorem parse_write {j : Json} (h : j.isExact = true) : parse j.write = (j.cut deepest, []) := by
  have hread := parseValue_write j h (2 * j.write.length + 2) deepest [] (by omega) endsNumber_nil
  rwa [List.append_nil] at hread

end SchemaMigration.Json

namespace SchemaMigration

/-- **A decoder that is given the text of a value decodes the value's first levels.** -/
theorem decodeText_render {α : Type} (read : Json → Read α) {j : Json} (h : j.isExact = true) :
    decodeText read j.render = read (j.cut Json.deepest) := by
  have htext : Json.parse j.render.toList = (j.cut Json.deepest, []) := by
    rw [Json.render, String.toList_ofList, Json.parse_write h]
  rw [decodeText, htext]
  dsimp only
  cases read (j.cut Json.deepest) <;> rfl

/-- The text of `j` decodes to `a`, unless it is nested too deep. -/
def DecodesTo {α : Type} (read : Json → Read α) (j : Json) (a : α) : Prop :=
  decodeText read j.render = if j.height ≤ Json.deepest then .ok a else .error .malformed

namespace DecodesTo

variable {α β : Type} {read : Json → Read α} {j : Json} {a : α}

/-- A value of few levels is decoded as a whole. -/
theorem of_plain {n : Nat} (h : j.Plain n) (hn : n ≤ Json.deepest) (hread : read j = .ok a) :
    DecodesTo read j a := by
  rw [DecodesTo, decodeText_render read h.exact, h.cut_eq hn, hread,
    if_pos (h.height_le.trans hn)]

/-- A decoder that goes on after another one. -/
theorem map (h : DecodesTo read j a) (f : α → β) :
    DecodesTo (fun k => (read k).map f) j (f a) := by
  have hmap : decodeText (fun k => (read k).map f) j.render =
      (decodeText read j.render).map f := by
    unfold decodeText
    obtain ⟨k, rest⟩ := Json.parse j.render.toList
    dsimp only
    cases read k with
    | error e => rfl
    | ok b =>
      show (if (Json.skipSpace rest).isEmpty = true then _ else _) =
        Except.map f (if _ then _ else _)
      split <;> rfl
  rw [DecodesTo, hmap, h]
  split <;> rfl

end DecodesTo

end SchemaMigration
