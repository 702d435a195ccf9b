import Mathlib.Data.List.Chain
import SchemaMigration.Catalog.Autoincrement
import SchemaMigration.Identifier
import SchemaMigration.Text.Quoted

/-!
# Where a counting column is found

The text of a table's definition is searched for a column's name followed by the words of a counting
key. Neither holds a single quote, so nothing is found across one, and the last of the words starts
with a letter that follows a blank.

* `foldCase_of_ascii`, `isWord_of_lt`: the tables of letters are looked up once for all of ASCII.
* `definesCountingInside_cut`: what is found around a single quote is found before it or behind it.
* `definesCountingInside_double`: doubling the single quotes of a text changes nothing.
* `Tame`: no blank of the text stands before the letter of the last word.
* **`Tame.definesCountingInside_eq_false`**: nothing is found in a tame text.
* `definesCountingInside_of_key`: the clause of a counting key is found.
-/

namespace SchemaMigration

open Text

/-! ## ASCII letters -/

/-- What is checked of every ASCII character holds of them. -/
theorem forall_ascii {P : Char → Prop} (h : ∀ n < 128, P (Char.ofNat n)) {c : Char}
    (hc : c.toNat < 128) : P c := by
  have := h c.toNat hc
  rwa [Char.ofNat_toNat] at this

/-- Of the ASCII characters folding moves the capitals. -/
theorem foldRun?_of_ascii {n : Nat} (hn : n < 128) :
    foldRun? n = if 65 ≤ n ∧ n ≤ 90 then some (65, 90, 1, 32) else none := by
  have hruns : foldRuns.toList = (65, 90, 1, 32) :: foldRuns.toList.tail := rfl
  have hbeyond : ∀ run ∈ foldRuns.toList.tail, 128 ≤ run.1 := by decide +kernel
  have hnone : foldRuns.toList.tail.find? (fun run => decide (run.1 ≤ n) && decide (n ≤ run.2.1) &&
      decide ((n - run.1) % run.2.2.1 = 0)) = none := by
    refine List.find?_eq_none.mpr fun run hrun => ?_
    have hrun := hbeyond run hrun
    rw [decide_eq_false (by omega : ¬run.1 ≤ n)]
    exact Bool.false_ne_true
  rw [foldRun?, ← Array.find?_toList, hruns, List.find?_cons, hnone]
  simp only [Nat.mod_one, decide_true, Bool.and_true]
  by_cases hcapital : 65 ≤ n ∧ n ≤ 90
  · rw [if_pos hcapital, decide_eq_true hcapital.1, decide_eq_true hcapital.2]
    rfl
  · rw [if_neg hcapital, ← Bool.decide_and, decide_eq_false hcapital]

/-- An ASCII character is folded to its small letter. -/
theorem foldCase_of_ascii {c : Char} (hc : c.toNat < 128) : foldCase c = c.toLower := by
  have hlower : (if 65 ≤ c.toNat ∧ c.toNat ≤ 90 then Char.ofNat (c.toNat + 32) else c) =
      c.toLower :=
    forall_ascii (P := fun c => (if 65 ≤ c.toNat ∧ c.toNat ≤ 90 then Char.ofNat (c.toNat + 32)
      else c) = c.toLower) (by decide +kernel) hc
  unfold foldCase
  rw [foldRun?_of_ascii hc, ← hlower]
  split
  · rename_i run hrun
    split at hrun
    · rename_i hcapital
      cases hrun
      rw [if_pos hcapital]
      rfl
    · cases hrun
  · rename_i hrun
    split at hrun
    · cases hrun
    · rename_i hcapital
      rw [if_neg hcapital]

theorem sameLetter_of_ascii {a b : Char} (ha : a.toNat < 128) (hb : b.toNat < 128) :
    sameLetter a b = (a.toLower == b.toLower) := by
  rw [sameLetter, foldCase_of_ascii ha, foldCase_of_ascii hb]

/-- The word characters start with the digits. -/
theorem isWord_of_lt {c : Char} (hc : c.toNat < 48) : isWord c = false := by
  have hdigits : ∀ range ∈ wordRanges.toList, 48 ≤ range.1 := by decide +kernel
  rw [isWord, ← Array.any_toList, List.any_eq_false]
  intro range hrange
  have hfirst := hdigits range hrange
  rw [decide_eq_false (by omega : ¬range.1 ≤ c.toNat)]
  exact Bool.false_ne_true

/-! ## Cutting at a single quote -/

/-- The letter is another one than the single quote. -/
def Quoteless (p : List Char) : Prop :=
  ∀ c ∈ p, sameLetter c '\'' = false

theorem sameLetter_quote {c : Char} (hc : c.toNat < 128 ∧ c.toLower ≠ '\'') :
    sameLetter c '\'' = false := by
  rw [sameLetter_of_ascii hc.1 (by decide)]
  exact beq_false_of_ne hc.2

theorem dropLetters?_cut {p : List Char} (hp : Quoteless p) (front back : List Char) :
    dropLetters? p (front ++ '\'' :: back) =
      (dropLetters? p front).map (· ++ '\'' :: back) := by
  induction p generalizing front with
  | nil => rfl
  | cons a p ih =>
    obtain ⟨ha, hp⟩ := List.forall_mem_cons.mp hp
    cases front with
    | nil =>
      show (if sameLetter a '\'' then dropLetters? p back else none) = none
      rw [ha]
      rfl
    | cons b front =>
      rw [List.cons_append, dropLetters?, dropLetters?, ih hp]
      split <;> rfl

theorem skipBlanks?_cut (front back : List Char) :
    skipBlanks? (front ++ '\'' :: back) = (skipBlanks? front).map (· ++ '\'' :: back) := by
  cases front with
  | nil => rfl
  | cons c r =>
    rw [List.cons_append, skipBlanks?, skipBlanks?, trimStart_append_cons rfl]
    split <;> rfl

theorem dropWords?_cut {ws : List (List Char)} (hws : ∀ w ∈ ws, Quoteless w)
    (front back : List Char) : dropWords? ws (front ++ '\'' :: back) =
      (dropWords? ws front).map (· ++ '\'' :: back) := by
  induction ws generalizing front with
  | nil => rfl
  | cons w ws ih =>
    obtain ⟨hw, hws⟩ := List.forall_mem_cons.mp hws
    rw [dropWords?, dropWords?, dropWord?, dropWord?, skipBlanks?_cut]
    cases skipBlanks? front with
    | none => rfl
    | some rest =>
      rw [Option.map_some, Option.bind_some, Option.bind_some, dropLetters?_cut hw]
      cases dropLetters? w rest with
      | none => rfl
      | some rest => exact ih hws rest

theorem startsWithWords_cut {words : List String} (hwords : words ∈ countingKeys)
    (front back : List Char) :
    startsWithWords words (front ++ '\'' :: back) = startsWithWords words front := by
  have hascii : ∀ words ∈ countingKeys, ∀ w ∈ words,
      (w.toList.all fun c => decide (c.toNat < 128 ∧ c.toLower ≠ '\'')) = true := by decide
  have hquoteless : ∀ w ∈ words.map String.toList, Quoteless w := by
    refine List.forall_mem_map.mpr fun w hw c hc => ?_
    exact sameLetter_quote (of_decide_eq_true (List.all_eq_true.mp (hascii words hwords w hw) c hc))
  rw [startsWithWords, startsWithWords, dropWords?_cut hquoteless]
  cases dropWords? (words.map String.toList) front with
  | none => rfl
  | some rest =>
    cases rest with
    | nil =>
      show (!isWord '\'') = true
      rw [isWord_of_lt (by decide)]
      rfl
    | cons c r => rfl

variable {name : List Char}

theorem quoteless_spelling (hname : Quoteless name) :
    ∀ spelling ∈ nameSpellings name, Quoteless spelling := by
  have hquoted : ∀ opening closing : Char, opening.toNat < 128 ∧ opening.toLower ≠ '\'' →
      closing.toNat < 128 ∧ closing.toLower ≠ '\'' →
        Quoteless (opening :: name ++ [closing]) := by
    intro opening closing hopening hclosing
    refine List.forall_mem_append.mpr ⟨List.forall_mem_cons.mpr ⟨?_, hname⟩, ?_⟩
    · exact sameLetter_quote hopening
    · exact List.forall_mem_singleton.mpr (sameLetter_quote hclosing)
  intro spelling hspelling
  simp only [nameSpellings, List.mem_cons, List.not_mem_nil, or_false] at hspelling
  rcases hspelling with rfl | rfl | rfl | rfl
  · exact hquoted _ _ (by decide) (by decide)
  · exact hquoted _ _ (by decide) (by decide)
  · exact hquoted _ _ (by decide) (by decide)
  · exact hname

theorem definesCounting_cut (hname : Quoteless name) (front back : List Char) :
    definesCounting name (front ++ '\'' :: back) = definesCounting name front := by
  rw [Bool.eq_iff_iff, definesCounting, definesCounting, List.any_eq_true, List.any_eq_true]
  refine exists_congr fun spelling => and_congr_right fun hspelling => ?_
  rw [dropLetters?_cut (quoteless_spelling hname spelling hspelling)]
  cases dropLetters? spelling front with
  | none => exact Iff.rfl
  | some rest =>
    simp only [Option.map_some, List.any_eq_true]
    refine exists_congr fun words => and_congr_right fun hwords => ?_
    rw [startsWithWords_cut hwords]

/-- **Nothing is found across a single quote.** -/
theorem definesCountingInside_cut (hname : Quoteless name) (front back : List Char) :
    definesCountingInside name (front ++ '\'' :: back) =
      (definesCountingInside name front || definesCountingInside name back) := by
  induction front with
  | nil =>
    show (opensDefinition '\'' && definesCounting name back || definesCountingInside name back) =
      (false || definesCountingInside name back)
    rw [show opensDefinition '\'' = false by decide, Bool.false_and]
  | cons c front ih =>
    rw [List.cons_append, definesCountingInside, definesCountingInside, definesCounting_cut hname,
      ih, Bool.or_assoc]

/-- Up to its first single quote a text is the same with its quotes doubled. -/
theorem double_eq_or (s : List Char) : double '\'' s = s ∨ ∃ front back back',
    s = front ++ '\'' :: back ∧ double '\'' s = front ++ '\'' :: back' := by
  induction s with
  | nil => exact Or.inl rfl
  | cons c r ih =>
    by_cases hc : c = '\''
    · subst hc
      exact Or.inr ⟨[], r, _, rfl, double_cons_quote _ r⟩
    · rw [double_cons_of_ne hc]
      rcases ih with hr | ⟨front, back, back', hr, hdouble⟩
      · exact Or.inl (by rw [hr])
      · exact Or.inr ⟨c :: front, back, back', by rw [hr]; rfl, by rw [hdouble]; rfl⟩

/-- A column is found in a text iff it is found in the text with its quotes doubled. -/
theorem definesCountingInside_double (hname : Quoteless name) (s : List Char) :
    definesCountingInside name (double '\'' s) = definesCountingInside name s := by
  have hfront : ∀ r, definesCounting name (double '\'' r) = definesCounting name r := by
    intro r
    rcases double_eq_or r with hr | ⟨front, back, back', hr, hdouble⟩
    · rw [hr]
    · rw [hdouble, hr, definesCounting_cut hname, definesCounting_cut hname]
  induction s with
  | nil => rfl
  | cons c r ih =>
    by_cases hc : c = '\''
    · subst hc
      have hopen : opensDefinition '\'' = false := by decide
      rw [double_cons_quote]
      simp only [definesCountingInside, hopen, Bool.false_and, Bool.false_or]
      exact ih
    · rw [double_cons_of_ne hc, definesCountingInside, definesCountingInside, hfront, ih]

/-! ## Texts without the last word -/

theorem exists_of_dropLetters? {p s rest : List Char} (h : dropLetters? p s = some rest) :
    ∃ front, s = front ++ rest := by
  induction p generalizing s with
  | nil => exact ⟨[], Option.some.inj h⟩
  | cons a p ih =>
    cases s with
    | nil => cases h
    | cons b s =>
      rw [dropLetters?] at h
      split at h
      · obtain ⟨front, rfl⟩ := ih h
        exact ⟨b :: front, rfl⟩
      · cases h

theorem exists_of_skipBlanks? {s rest : List Char} (h : skipBlanks? s = some rest) :
    ∃ front blank, isBlank blank = true ∧ s = front ++ blank :: rest := by
  induction s generalizing rest with
  | nil => cases h
  | cons c r ih =>
    rw [skipBlanks?] at h
    split at h
    · rename_i hc
      obtain rfl := Option.some.inj h
      cases r with
      | nil => exact ⟨[], c, hc, rfl⟩
      | cons d r =>
        by_cases hd : isBlank d = true
        · obtain ⟨front, blank, hblank, hr⟩ := ih (by rw [skipBlanks?, if_pos hd])
          refine ⟨c :: front, blank, hblank, ?_⟩
          rw [trimStart, List.dropWhile_cons_of_pos hd, List.cons_append, ← trimStart, ← hr]
        · rw [trimStart_cons_of_not_blank (eq_false_of_ne_true hd)]
          exact ⟨[], c, hc, rfl⟩
    · cases h

/-- The last word starts with this letter. -/
def lastLetter : Char := 'A'

/-- Words that end in the last one are found only where a blank stands before its letter. -/
theorem exists_of_dropWords? {ws : List (List Char)} {word s rest : List Char}
    (h : dropWords? (ws ++ [lastLetter :: word]) s = some rest) :
    ∃ front blank letter back, s = front ++ blank :: letter :: back ∧ isBlank blank = true ∧
      sameLetter lastLetter letter = true := by
  induction ws generalizing s with
  | nil =>
    obtain ⟨t, hword, -⟩ := Option.bind_eq_some_iff.mp h
    obtain ⟨u, hblanks, hletters⟩ := Option.bind_eq_some_iff.mp hword
    obtain ⟨front, blank, hblank, rfl⟩ := exists_of_skipBlanks? hblanks
    cases u with
    | nil => cases hletters
    | cons letter back =>
      rw [dropLetters?] at hletters
      split at hletters
      · rename_i hletter
        exact ⟨front, blank, letter, back, rfl, hblank, hletter⟩
      · cases hletters
  | cons w ws ih =>
    obtain ⟨t, hword, hrest⟩ := Option.bind_eq_some_iff.mp h
    obtain ⟨u, hblanks, hletters⟩ := Option.bind_eq_some_iff.mp hword
    obtain ⟨front, blank, hblank, rfl⟩ := exists_of_skipBlanks? hblanks
    obtain ⟨front', rfl⟩ := exists_of_dropLetters? hletters
    obtain ⟨before, blank', letter, back, rfl, hletter⟩ := ih hrest
    exact ⟨front ++ blank :: front' ++ before, blank', letter, back, by simp, hletter⟩

/-- A column is found only where a blank stands before the letter of the last word. -/
theorem exists_of_definesCountingInside {s : List Char} (h : definesCountingInside name s = true) :
    ∃ front blank letter back, s = front ++ blank :: letter :: back ∧ isBlank blank = true ∧
      sameLetter lastLetter letter = true := by
  have hkeys : ∀ words ∈ countingKeys, ∃ ws word,
      words.map String.toList = ws ++ [lastLetter :: word] := by
    intro words hwords
    simp only [countingKeys, List.mem_cons, List.not_mem_nil, or_false] at hwords
    rcases hwords with rfl | rfl | rfl
    · exact ⟨["INTEGER".toList, "PRIMARY".toList, "KEY".toList], "UTOINCREMENT".toList, rfl⟩
    · exact ⟨["INTEGER".toList, "PRIMARY".toList, "KEY".toList, "ASC".toList],
        "UTOINCREMENT".toList, rfl⟩
    · exact ⟨["INTEGER".toList, "PRIMARY".toList, "KEY".toList, "DESC".toList],
        "UTOINCREMENT".toList, rfl⟩
  have hfront : ∀ s, definesCounting name s = true → ∃ front blank letter back,
      s = front ++ blank :: letter :: back ∧ isBlank blank = true ∧
        sameLetter lastLetter letter = true := by
    intro s hs
    obtain ⟨spelling, -, hs⟩ := List.any_eq_true.mp hs
    split at hs
    · rename_i rest hrest
      obtain ⟨words, hwords, hs⟩ := List.any_eq_true.mp hs
      obtain ⟨ws, word, hword⟩ := hkeys words hwords
      rw [startsWithWords, hword] at hs
      split at hs
      · rename_i rest' hrest'
        obtain ⟨front, rfl⟩ := exists_of_dropLetters? hrest
        obtain ⟨before, blank, letter, back, rfl, hletter⟩ := exists_of_dropWords? hrest'
        exact ⟨front ++ before, blank, letter, back, by simp, hletter⟩
      · cases hs
    · cases hs
  induction s with
  | nil => cases h
  | cons c r ih =>
    have hrest : ∃ front blank letter back, r = front ++ blank :: letter :: back ∧
        isBlank blank = true ∧ sameLetter lastLetter letter = true := by
      rw [definesCountingInside, Bool.or_eq_true, Bool.and_eq_true] at h
      rcases h with ⟨-, h⟩ | h
      · exact hfront r h
      · exact ih h
    obtain ⟨front, blank, letter, back, rfl, hletter⟩ := hrest
    exact ⟨c :: front, blank, letter, back, rfl, hletter⟩

/-- The text neither starts with the letter of the last word nor has a blank before it. -/
structure Tame (s : List Char) : Prop where
  /-- No blank stands before the letter. -/
  apart : s.IsChain fun a b => isBlank a = true → sameLetter lastLetter b = false
  /-- The letter is not the first one. -/
  head : ∀ c ∈ s.head?, sameLetter lastLetter c = false

/-- An ASCII character that is neither blank nor the letter of the last word. -/
def Mild (c : Char) : Prop :=
  c.toNat < 128 ∧ isBlank c = false ∧ c.toLower ≠ lastLetter.toLower

instance : DecidablePred Mild :=
  fun _ => inferInstanceAs (Decidable (_ ∧ _ ∧ _))

theorem Mild.sameLetter_eq_false {c : Char} (h : Mild c) : sameLetter lastLetter c = false := by
  rw [sameLetter_of_ascii (by decide) h.1]
  exact beq_false_of_ne h.2.2.symm

namespace Tame

variable {s t : List Char}

theorem nil : Tame [] :=
  ⟨.nil, by simp⟩

theorem append (hs : Tame s) (ht : Tame t) : Tame (s ++ t) := by
  refine ⟨List.isChain_append.mpr ⟨hs.apart, ht.apart, fun _ _ c hc _ => ht.head c hc⟩, ?_⟩
  cases s with
  | nil => exact ht.head
  | cons c r => exact hs.head

/-- A text without blanks is tame if it does not start with the letter. -/
theorem of_blank_free (hblank : ∀ c ∈ s, isBlank c = false)
    (hhead : ∀ c ∈ s.head?, sameLetter lastLetter c = false) : Tame s := by
  refine ⟨(List.pairwise_of_forall_mem_list fun a ha _ _ h => ?_).isChain, hhead⟩
  rw [hblank a ha] at h
  cases h

/-- A text of mild characters is tame. -/
theorem of_mild (h : ∀ c ∈ s, Mild c) : Tame s :=
  .of_blank_free (fun c hc => (h c hc).2.1) fun c hc =>
    (h c (List.mem_of_mem_head? hc)).sameLetter_eq_false

/-- A mild character goes before a text without blanks. -/
theorem cons {c : Char} (hc : Mild c) (hs : ∀ d ∈ s, isBlank d = false) : Tame (c :: s) := by
  refine .of_blank_free (List.forall_mem_cons.mpr ⟨hc.2.1, hs⟩) fun d hd => ?_
  cases hd
  exact hc.sameLetter_eq_false

/-- ASCII characters are tame where, behind a blank, none of them is the letter after a blank. -/
theorem of_ascii {s : List Char} (h : (s.all fun c => decide (c.toNat < 128)) = true ∧
    (' ' :: s).IsChain fun a b => isBlank a = true → b.toLower ≠ lastLetter.toLower) : Tame s := by
  obtain ⟨hall, h⟩ := h
  have hascii : ∀ c ∈ s, c.toNat < 128 := by simpa using hall
  have hletter : ∀ c ∈ s, c.toLower ≠ lastLetter.toLower → sameLetter lastLetter c = false := by
    intro c hc hne
    rw [sameLetter_of_ascii (by decide) (hascii c hc)]
    exact beq_false_of_ne hne.symm
  refine ⟨h.of_cons.imp_of_mem_imp fun a b _ hb hab ha => hletter b hb (hab ha), fun c hc => ?_⟩
  obtain ⟨r, rfl⟩ := List.head?_eq_some_iff.mp hc
  exact hletter c List.mem_cons_self ((List.isChain_cons_cons.mp h).1 isBlank_space)

/-- **Nothing is found in a tame text.** -/
theorem definesCountingInside_eq_false (h : Tame s) (name : List Char) :
    definesCountingInside name s = false := by
  by_contra hfound
  obtain ⟨front, blank, letter, back, rfl, hblank, hletter⟩ :=
    exists_of_definesCountingInside (eq_true_of_ne_false hfound)
  have hchain := (List.isChain_append.mp h.apart).2.1
  have := (List.isChain_cons_cons.mp hchain).1 hblank
  rw [hletter] at this
  cases this

end Tame

/-! ## A counting key -/

theorem dropLetters?_append (p s : List Char) : dropLetters? p (p ++ s) = some s := by
  induction p with
  | nil => rfl
  | cons a p ih => rw [List.cons_append, dropLetters?, if_pos (by simp [sameLetter]), ih]

/-- A word behind a single blank is dropped with it. -/
theorem dropWords?_cons {c : Char} (hc : isBlank c = false) (w : List Char) (ws : List (List Char))
    (s : List Char) : dropWords? ((c :: w) :: ws) (' ' :: (c :: w) ++ s) = dropWords? ws s := by
  rw [dropWords?, dropWord?, List.cons_append, skipBlanks?, if_pos isBlank_space, List.cons_append,
    trimStart_cons_of_not_blank hc, Option.bind_some, ← List.cons_append, dropLetters?_append,
    Option.bind_some]

/-- What follows the name of a counting key in its clause. -/
def keyWords : List Char := " INTEGER PRIMARY KEY AUTOINCREMENT".toList

theorem startsWithWords_keyWords {rest : List Char} (hrest : endsWord rest = true) :
    startsWithWords ["INTEGER", "PRIMARY", "KEY", "AUTOINCREMENT"] (keyWords ++ rest) = true := by
  have hwords : dropWords? (["INTEGER", "PRIMARY", "KEY", "AUTOINCREMENT"].map String.toList)
      (keyWords ++ rest) = some rest := by
    show dropWords? ["INTEGER".toList, "PRIMARY".toList, "KEY".toList, "AUTOINCREMENT".toList]
      (' ' :: "INTEGER".toList ++ (' ' :: "PRIMARY".toList ++
        (' ' :: "KEY".toList ++ (' ' :: "AUTOINCREMENT".toList ++ rest)))) = some rest
    rw [show "INTEGER".toList = 'I' :: "NTEGER".toList from rfl, dropWords?_cons (by decide),
      show "PRIMARY".toList = 'P' :: "RIMARY".toList from rfl, dropWords?_cons (by decide),
      show "KEY".toList = 'K' :: "EY".toList from rfl, dropWords?_cons (by decide),
      show "AUTOINCREMENT".toList = 'A' :: "UTOINCREMENT".toList from rfl,
      dropWords?_cons (by decide)]
    rfl
  rw [startsWithWords, hwords]
  exact hrest

/-- **The clause of a counting key is found** where a definition may stand. -/
theorem definesCountingInside_of_key {opening : Char} (hopening : opensDefinition opening = true)
    {rest : List Char} (hrest : endsWord rest = true) (name front : List Char) :
    definesCountingInside name
      (front ++ opening :: ('"' :: name ++ ['"'] ++ (keyWords ++ rest))) = true := by
  induction front with
  | nil =>
    have hname : '"' :: name ++ ['"'] ∈ nameSpellings name := List.mem_cons_self
    have hkey : definesCounting name ('"' :: name ++ ['"'] ++ (keyWords ++ rest)) = true := by
      refine List.any_eq_true.mpr ⟨_, hname, ?_⟩
      rw [dropLetters?_append]
      exact List.any_eq_true.mpr ⟨_, List.mem_cons_self, startsWithWords_keyWords hrest⟩
    rw [List.nil_append, definesCountingInside, hopening, hkey]
    rfl
  | cons c front ih =>
    rw [List.cons_append, definesCountingInside, ih, Bool.or_true]

end SchemaMigration
