import SchemaMigration.Proofs.Chooser.Verdict
import SchemaMigration.Proofs.Migration.Prompts

/-!
# Dialogues at a terminal

A terminal reads the lines of its input one after the other. Every prompt takes the lines up to the
first one that decides it, or all that are left, and the next prompt goes on behind them.

About the `choose` of `TerminalChooser`, and the `ask` of `Migrator`.

* `Lines`: the lines of a text; `pending_ofBytes`: a terminal reads the lines of its input.
* `Reads`: the lines that one prompt takes, and its answer; `converse_reads`: a prompt does so.
* `Dialogue`: the lines that successive prompts take; `chooseAll_dialogue`: the prompts do so.
* **`Terminal.dialogue`**: both, for every input, and for prompts that a migrator puts.
-/

namespace SchemaMigration

/-! ## Lines -/

/-- The lines of a text. Every line but the last one ends with a line feed, and none of them holds a
line feed elsewhere. -/
inductive Lines : List Char → List String → Prop
  /-- Nothing has no lines. -/
  | nil : Lines [] []
  /-- What stands after the last line feed is a line. -/
  | last {s : List Char} (hne : s ≠ []) (hs : '\n' ∉ s) : Lines s [String.ofList s]
  /-- A line feed ends a line. -/
  | cons {s rest : List Char} {lines : List String} (hs : '\n' ∉ s) (h : Lines rest lines) :
      Lines (s ++ '\n' :: rest) (String.ofList (s ++ ['\n']) :: lines)

/-- Every text has lines. -/
theorem exists_lines (s : List Char) : ∃ lines, Lines s lines := by
  induction s with
  | nil => exact ⟨[], .nil⟩
  | cons c r ih =>
    obtain ⟨lines, hlines⟩ := ih
    by_cases hc : c = '\n'
    · subst hc
      exact ⟨_, .cons (s := []) (by simp) hlines⟩
    · have hc : '\n' ≠ c := Ne.symm hc
      cases hlines with
      | nil => exact ⟨_, .last (List.cons_ne_nil c []) (by simpa using hc)⟩
      | last hne hs => exact ⟨_, .last (List.cons_ne_nil c _) (by simp [hc, hs])⟩
      | @cons s rest lines hs h =>
        exact ⟨_, .cons (s := c :: s) (by simp [hc, hs]) h⟩

/-- The bytes of a text. -/
def utf8Bytes (s : List Char) : List UInt8 :=
  s.flatMap String.utf8EncodeChar

theorem utf8Bytes_append (s t : List Char) : utf8Bytes (s ++ t) = utf8Bytes s ++ utf8Bytes t :=
  List.flatMap_append

theorem utf8Bytes_feed : utf8Bytes ['\n'] = [10] := rfl

theorem utf8Bytes_ne_nil {s : List Char} (hs : s ≠ []) : utf8Bytes s ≠ [] := by
  cases s with
  | nil => exact absurd rfl hs
  | cons c r => simp [utf8Bytes]

/-- The bytes of a text make up that text. -/
theorem Line.ofBytes_utf8Bytes (s : List Char) :
    Line.ofBytes (utf8Bytes s) = .text (String.ofList s) := by
  have hbytes : (⟨(utf8Bytes s).toArray⟩ : ByteArray) = (String.ofList s).toByteArray :=
    ByteArray.ext List.data_toByteArray.symm
  have hread : String.fromUTF8? (String.ofList s).toByteArray = some (String.ofList s) :=
    dif_pos (String.ofList s).isValidUTF8
  unfold Line.ofBytes
  rw [hbytes, hread]

/-- No byte of another character is a line feed. -/
theorem feed_notMem_utf8EncodeChar {c : Char} (hc : c ≠ '\n') : 10 ∉ String.utf8EncodeChar c := by
  have hfeed : c.val.toNat ≠ 10 := fun e => hc (Char.toNat_inj.mp e)
  have hbyte : ∀ n, n < 256 → n ≠ 10 → (10 : UInt8) ≠ UInt8.ofNat n := by
    intro n hn hne e
    have hvalue := congrArg UInt8.toNat e
    rw [UInt8.toNat_ofNat_of_lt' hn] at hvalue
    exact hne hvalue.symm
  -- The byte of an ASCII character is the character, and all other bytes are above the ASCII ones.
  unfold String.utf8EncodeChar
  dsimp only
  split_ifs <;> simp only [List.mem_cons, List.not_mem_nil, or_false, not_or]
  · exact hbyte _ (by omega) hfeed
  · exact ⟨hbyte _ (by omega) (by omega), hbyte _ (by omega) (by omega)⟩
  · exact ⟨hbyte _ (by omega) (by omega), hbyte _ (by omega) (by omega),
      hbyte _ (by omega) (by omega)⟩
  · exact ⟨hbyte _ (by omega) (by omega), hbyte _ (by omega) (by omega),
      hbyte _ (by omega) (by omega), hbyte _ (by omega) (by omega)⟩

theorem feed_notMem_utf8Bytes {s : List Char} (hs : '\n' ∉ s) : 10 ∉ utf8Bytes s := by
  unfold utf8Bytes
  rw [List.mem_flatMap]
  rintro ⟨c, hc, h⟩
  have hne : c ≠ '\n' := by
    rintro rfl
    exact hs hc
  exact feed_notMem_utf8EncodeChar hne h

/-- Bytes without a line feed belong to the line that has begun. -/
theorem splitLines_append {bs : List UInt8} (hbs : 10 ∉ bs) (current rest : List UInt8) :
    splitLines current (bs ++ rest) = splitLines (bs.reverse ++ current) rest := by
  induction bs generalizing current with
  | nil => rfl
  | cons b r ih =>
    have hb : b ≠ 10 := fun e => hbs (by simp [e])
    have hr : 10 ∉ r := fun h => hbs (List.mem_cons_of_mem b h)
    rw [List.cons_append, splitLines, if_neg hb, ih hr]
    simp

/-- The bytes of a text are cut into the bytes of its lines. -/
theorem splitLines_utf8Bytes {s : List Char} {lines : List String} (h : Lines s lines) :
    splitLines [] (utf8Bytes s) = lines.map fun line => utf8Bytes line.toList := by
  induction h with
  | nil => rfl
  | @last s hne hs =>
    have hcut := splitLines_append (feed_notMem_utf8Bytes hs) [] []
    rw [List.append_nil, List.append_nil] at hcut
    rw [hcut, splitLines, if_neg (by simpa using utf8Bytes_ne_nil hne), List.reverse_reverse,
      List.map_singleton, String.toList_ofList]
  | @cons s rest lines hs h ih =>
    have hbytes : utf8Bytes (s ++ '\n' :: rest) = utf8Bytes s ++ 10 :: utf8Bytes rest := by
      rw [← List.singleton_append, utf8Bytes_append, utf8Bytes_append, utf8Bytes_feed,
        List.singleton_append]
    rw [hbytes, splitLines_append (feed_notMem_utf8Bytes hs), splitLines, if_pos rfl, ih,
      List.map_cons, String.toList_ofList, utf8Bytes_append, utf8Bytes_feed]
    simp

/-- **A terminal reads the lines of its input.** -/
theorem Terminal.pending_ofBytes {s : List Char} {lines : List String} (h : Lines s lines) :
    (Terminal.ofBytes (utf8Bytes s)).pending = lines.map .text := by
  unfold Terminal.ofBytes
  rw [splitLines_utf8Bytes h, List.map_map]
  refine List.map_congr_left fun line _ => ?_
  show Line.ofBytes (utf8Bytes line.toList) = .text line
  rw [Line.ofBytes_utf8Bytes, String.ofList_toList]

/-! ## One prompt -/

namespace Terminal

/-- The answer that a line gives: the line without the blanks around it. -/
def reply (line : String) : List Char :=
  Text.trim line.toList

/-- A prompt with these choices takes the lines, leaves the rest, and is answered with the key or
declined. -/
inductive Reads (choices : List Choice) : List String → List String → Option String → Prop
  /-- The lines up to the first decisive one are taken. -/
  | decided {before rest : List String} {line : String} {key : Option String}
      (hbefore : ∀ l ∈ before, ¬ Decisive choices (reply l))
      (h : Decides choices (reply line) key) : Reads choices (before ++ [line]) rest key
  /-- Where no line is decisive, all of them are taken, and the prompt is declined. -/
  | ended {lines : List String} (h : ∀ l ∈ lines, ¬ Decisive choices (reply l)) :
      Reads choices lines [] none

/-- A line that is not decisive is passed over. -/
theorem Reads.cons {choices : List Choice} {line : String} {part rest : List String}
    {key : Option String} (hline : ¬ Decisive choices (reply line))
    (h : Reads choices part rest key) : Reads choices (line :: part) rest key := by
  cases h with
  | decided hbefore h =>
    rw [← List.cons_append]
    exact .decided (List.forall_mem_cons.mpr ⟨hline, hbefore⟩) h
  | ended h => exact .ended (List.forall_mem_cons.mpr ⟨hline, h⟩)

/-- **A prompt takes its lines**, and leaves the rest. -/
theorem converse_reads {choices : List Choice} (hne : choices ≠ []) (prompt : String) :
    ∀ (lines : List String) (written : String), ∃ part rest key output,
      lines = part ++ rest ∧ Reads choices part rest key ∧
        converse prompt choices written (lines.map .text) =
          (.ok key, ⟨rest.map .text, output⟩)
  | [], written => ⟨[], [], none, _, rfl, .ended (List.forall_mem_nil _), rfl⟩
  | line :: lines, written => by
    rw [List.map_cons, converse]
    cases hline : verdict? choices (Text.trim line.toList) with
    | some key =>
      have hdecides : Decides choices (reply line) key := (verdict?_eq_some_iff hne).mp hline
      exact ⟨[line], lines, key, _, rfl, .decided (List.forall_mem_nil _) hdecides, rfl⟩
    | none =>
      -- The prompt is put again: the other lines are read as if this one had not been there, up to
      -- what is written.
      have hpassed : ¬ Decisive choices (reply line) := (verdict?_eq_none_iff hne).mp hline
      obtain ⟨part, rest, key, output, rfl, hreads, hconverse⟩ := converse_reads hne prompt lines
        (written ++ question prompt choices ++ complaint (reply line))
      exact ⟨line :: part, rest, key, output, rfl, hreads.cons hpassed, hconverse⟩

theorem answer_reads {t : Terminal} {lines : List String} (ht : t.pending = lines.map .text)
    {choices : List Choice} (hne : choices ≠ []) (prompt : String) :
    ∃ part rest key output, lines = part ++ rest ∧ Reads choices part rest key ∧
      t.answer prompt choices = (.ok key, ⟨rest.map .text, output⟩) := by
  unfold answer
  rw [ht]
  exact converse_reads hne prompt lines t.written

/-! ## Successive prompts -/

end Terminal

/-- The answers to prompts that are put one after the other, and the state after the last one. -/
def Chooser.chooseAll {κ : Type} (c : Chooser κ) :
    List (String × List Choice) → κ → List (Except MigrationError (Option String)) × κ
  | [], k => ([], k)
  | (prompt, choices) :: r, k =>
    let (answer, k) := c.choose prompt choices k
    let (answers, k) := c.chooseAll r k
    (answer :: answers, k)

namespace Terminal

/-- Prompts with these choices take the lines from the front, one prompt after the other. They are
answered with the keys, or declined, and leave the rest. -/
inductive Dialogue : List (List Choice) → List String → List (Option String) → List String → Prop
  /-- Without a prompt no line is taken. -/
  | nil (lines : List String) : Dialogue [] lines [] lines
  /-- The first prompt takes its lines, and the others go on behind them. -/
  | cons {choices : List Choice} {others : List (List Choice)} {part rest left : List String}
      {key : Option String} {keys : List (Option String)} (h : Reads choices part rest key)
      (hothers : Dialogue others rest keys left) :
      Dialogue (choices :: others) (part ++ rest) (key :: keys) left

/-- **Successive prompts take consecutive lines.** -/
theorem chooseAll_dialogue : ∀ {prompts : List (String × List Choice)} {t : Terminal}
    {lines : List String}, t.pending = lines.map .text → (∀ p ∈ prompts, p.2 ≠ []) →
      ∃ keys left, Dialogue (prompts.map Prod.snd) lines keys left ∧
        (Chooser.terminal.chooseAll prompts t).1 = keys.map .ok ∧
        (Chooser.terminal.chooseAll prompts t).2.pending = left.map .text
  | [], t, lines, ht, _ => ⟨[], lines, .nil lines, rfl, ht⟩
  | (prompt, choices) :: prompts, t, lines, ht, hne => by
    rw [List.forall_mem_cons] at hne
    obtain ⟨part, rest, key, output, rfl, hreads, hanswer⟩ := answer_reads ht hne.1 prompt
    have hchoose : Chooser.terminal.choose prompt choices t =
        (.ok key, ⟨rest.map .text, output⟩) := hanswer
    obtain ⟨keys, left, hdialogue, hkeys, hleft⟩ :=
      chooseAll_dialogue (t := ⟨rest.map .text, output⟩) rfl hne.2
    refine ⟨key :: keys, left, .cons hreads hdialogue, ?_, ?_⟩
    · rw [Chooser.chooseAll, hchoose, List.map_cons, ← hkeys]
    · rw [Chooser.chooseAll, hchoose, ← hleft]

/-! ## Prompts of a migrator -/

/-- A key that is decided on is on offer. -/
theorem Decides.offers {choices : List Choice} {answer : List Char} {key : String}
    (h : Decides choices answer (some key)) : offers choices key = true := by
  have hmem : ∃ c ∈ choices, c.key = key := by
    cases h with
    | default _ hc => exact ⟨_, hc ▸ List.mem_cons_self, rfl⟩
    | numbered hc =>
      obtain ⟨n, -, -, hn⟩ := hc
      exact ⟨_, List.mem_of_getElem? hn, rfl⟩
    | named _ _ hc => exact ⟨_, hc.1, rfl⟩
  simpa [SchemaMigration.offers] using hmem

theorem Reads.offers {choices : List Choice} {part rest : List String} {key : String}
    (h : Reads choices part rest (some key)) : SchemaMigration.offers choices key = true := by
  cases h with
  | decided _ h => exact h.offers

/-- What a prompt about a collection comes to, when it is answered with a key or declined. -/
def settled (c : CollectionRef) (prompt : String) : Option String → Except MigrationError String
  | some key => .ok key
  | none => .error (.aborted c.identity prompt)

/-- A migrator that asks at a terminal gets the key that the lines decide on. -/
theorem outcome_ask_reads {σ : Type} {m : Migrator σ Terminal} (hm : m.chooser = .terminal)
    {s : Situation σ Terminal} {lines : List String} (hs : s.chooser.pending = lines.map .text)
    (c : CollectionRef) (prompt : String) {choices : List Choice} (hne : choices ≠ []) :
    ∃ part rest key output, lines = part ++ rest ∧ Reads choices part rest key ∧
      (m.ask c prompt choices).outcome s =
        (settled c prompt key, ⟨s.backend, ⟨rest.map .text, output⟩, s.runs⟩) := by
  obtain ⟨part, rest, key, output, rfl, hreads, hanswer⟩ := answer_reads hs hne prompt
  have hput : (m.put prompt choices).outcome s =
      (.ok key, ⟨s.backend, ⟨rest.map .text, output⟩, s.runs⟩) := by
    show ((m.chooser.choose prompt choices s.chooser).1, Situation.mk s.backend
      (m.chooser.choose prompt choices s.chooser).2 s.runs) = _
    rw [hm]
    show ((s.chooser.answer prompt choices).1, Situation.mk s.backend
      (s.chooser.answer prompt choices).2 s.runs) = _
    rw [hanswer]
  refine ⟨part, rest, key, output, rfl, hreads, ?_⟩
  rw [Migrator.outcome_ask (e := ⟨prompt, choices, .ok key⟩) c hput]
  cases key with
  | none => rfl
  | some key =>
    show ((if offers choices key then _ else _ : Except MigrationError String), _) = _
    rw [if_pos hreads.offers]
    rfl

theorem settled_ne_invalidChoice (c : CollectionRef) (prompt : String) (key : Option String)
    (k : String) : settled c prompt key ≠ .error (.invalidChoice k) := by
  cases key <;> simp [settled]

/-- **Prompts at a terminal** take the lines of its input from the front, each up to the first line
that decides it. So they are all answered, each with what its own lines decide; and a migrator that
asks there gets a key that is on offer, or the step is declined. -/
theorem dialogue (input : List Char) {prompts : List (String × List Choice)}
    (hne : ∀ p ∈ prompts, p.2 ≠ []) :
    ∃ lines keys left, Lines input lines ∧ Dialogue (prompts.map Prod.snd) lines keys left ∧
      (Chooser.terminal.chooseAll prompts (.ofBytes (utf8Bytes input))).1 = keys.map .ok ∧
      (Chooser.terminal.chooseAll prompts (.ofBytes (utf8Bytes input))).2.pending =
        left.map .text ∧
      ∀ (σ : Type) (m : Migrator σ Terminal) (s : Situation σ Terminal), m.chooser = .terminal →
        s.chooser = (Chooser.terminal.chooseAll prompts (.ofBytes (utf8Bytes input))).2 →
          ∀ c prompt choices, choices ≠ [] → ∃ part rest key output,
            left = part ++ rest ∧ Reads choices part rest key ∧
            (m.ask c prompt choices).outcome s =
              (settled c prompt key, ⟨s.backend, ⟨rest.map .text, output⟩, s.runs⟩) ∧
            ∀ k, ((m.ask c prompt choices).outcome s).1 ≠ .error (.invalidChoice k) := by
  obtain ⟨lines, hlines⟩ := exists_lines input
  obtain ⟨keys, left, hdialogue, hkeys, hleft⟩ :=
    chooseAll_dialogue (pending_ofBytes hlines) hne
  refine ⟨lines, keys, left, hlines, hdialogue, hkeys, hleft, ?_⟩
  intro σ m s hm hs c prompt choices hchoices
  rw [← hs] at hleft
  obtain ⟨part, rest, key, output, hpart, hreads, hask⟩ :=
    outcome_ask_reads hm hleft c prompt hchoices
  refine ⟨part, rest, key, output, hpart, hreads, hask, fun k => ?_⟩
  rw [hask]
  exact settled_ne_invalidChoice c prompt key k

end Terminal

/-! ## An example -/

namespace Posts

/-- What somebody types: an unknown number, and then the number of the second choice. -/
def typed : List Char := "7\n 2 \n".toList

/-- Two prompts, of which the second one finds no line left. -/
def twoPrompts : List (String × List Choice) :=
  [("Seed it?", copyChoices ["title"]), ("Drop it?", dropChoices)]

theorem twoPrompts_offer : ∀ p ∈ twoPrompts, p.2 ≠ [] := by
  simp [twoPrompts, copyChoices, dropChoices]

theorem ofBytes_typed :
    Terminal.ofBytes (utf8Bytes typed) = ⟨[.text "7\n", .text " 2 \n"], ""⟩ := by
  have hlines : Lines typed ["7\n", " 2 \n"] :=
    .cons (s := ['7']) (by decide) (.cons (s := [' ', '2', ' ']) (by decide) .nil)
  exact congrArg (Terminal.mk · "") (Terminal.pending_ofBytes hlines)

theorem chooseAll_typed :
    (Chooser.terminal.chooseAll twoPrompts (.ofBytes (utf8Bytes typed))).1 =
      [.ok (some "title"), .ok none] := by
  rw [ofBytes_typed]
  rfl

end Posts

/-- The first prompt takes both lines and the second one none. -/
theorem Terminal.dialogue_of_posts :
    (∀ p ∈ Posts.twoPrompts, p.2 ≠ []) ∧ ∃ lines left, Lines Posts.typed lines ∧
      Dialogue (Posts.twoPrompts.map Prod.snd) lines [some "title", none] left ∧
      (Chooser.terminal.chooseAll Posts.twoPrompts (.ofBytes (utf8Bytes Posts.typed))).2.pending =
        left.map .text := by
  refine ⟨Posts.twoPrompts_offer, ?_⟩
  obtain ⟨lines, keys, left, hlines, hdialogue, hkeys, hleft, -⟩ :=
    Terminal.dialogue Posts.typed Posts.twoPrompts_offer
  rw [Posts.chooseAll_typed] at hkeys
  have hkeys : [some "title", none] = keys :=
    List.map_injective_iff.mpr (fun _ _ => Except.ok.inj) hkeys
  subst hkeys
  exact ⟨lines, left, hlines, hdialogue, hleft⟩

end SchemaMigration
