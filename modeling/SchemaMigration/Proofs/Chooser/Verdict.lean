import Mathlib.Algebra.Group.Nat.Defs
import Mathlib.Data.List.Induction
import SchemaMigration.Chooser.Terminal

/-!
# What an answer decides

An answer at a terminal, without the blanks around it, is looked at as the empty answer, as a
number, as a key and as the letter that declines, in this order. The first reading that it has
decides.

* `Decimal.readUnsigned?_eq_some_iff`: which texts are read as a number.
* `Decides`: what an answer decides; `Decisive`: the answers that decide something.
* **`verdict?_eq_some_iff`**, **`verdict?_eq_none_iff`**: the terminal decides so.
-/

namespace SchemaMigration

/-! ## Numbers -/

namespace Decimal

/-- The text writes the number: its digits, perhaps with zeros and a plus before them. -/
def Writes (s : List Char) (n : Nat) : Prop :=
  ∃ zeros, s = List.replicate zeros '0' ++ digits n ∨
    s = '+' :: (List.replicate zeros '0' ++ digits n)

/-- A digit is the digit of its value. -/
theorem digitChar_digitValue {c : Char} (h : isDigit c = true) :
    digitValue c < 10 ∧ digitChar (digitValue c) = c := by
  simp only [isDigit, Bool.and_eq_true, decide_eq_true_eq] at h
  refine ⟨by unfold digitValue; omega, ?_⟩
  unfold digitChar digitValue
  rw [Nat.add_sub_cancel' h.1]
  exact Char.ofNat_toNat c

theorem ofDigits_zeros_digits (zeros n : Nat) :
    ofDigits (List.replicate zeros '0' ++ digits n) = n := by
  induction zeros with
  | zero => simpa using ofDigits_digits n
  | succ zeros ih =>
    rw [List.replicate_succ, List.cons_append]
    exact ih

/-- A run of digits is the digits of a number after some zeros. -/
theorem exists_zeros {s : List Char} (hne : s ≠ []) (h : ∀ c ∈ s, isDigit c = true) :
    ∃ zeros, s = List.replicate zeros '0' ++ digits (ofDigits s) := by
  induction s using List.reverseRecOn with
  | nil => exact absurd rfl hne
  | append_singleton s c ih =>
    have hc := digitChar_digitValue (h c (by simp))
    have hdigit : digits (digitValue c) = [c] := by rw [digits, if_pos hc.1, hc.2]
    rw [ofDigits_append_digit]
    by_cases hs : s = []
    · subst hs
      exact ⟨0, by simp [ofDigits, hdigit]⟩
    · obtain ⟨zeros, hzeros⟩ := ih hs fun d hd => h d (by simp [hd])
      -- A digit after nothing but zeros makes the last zero one of those before the number.
      by_cases hvalue : ofDigits s = 0
      · refine ⟨zeros + 1, ?_⟩
        have hzero : digits 0 = ['0'] := by
          rw [digits, if_pos (by decide)]
          rfl
        rw [hvalue, hzero] at hzeros
        rw [hvalue, Nat.mul_zero, Nat.zero_add, hdigit, hzeros, List.replicate_succ']
      · refine ⟨zeros, ?_⟩
        have hten : ¬ 10 * ofDigits s + digitValue c < 10 := by omega
        have hdiv : (10 * ofDigits s + digitValue c) / 10 = ofDigits s := by omega
        have hmod : (10 * ofDigits s + digitValue c) % 10 = digitValue c := by omega
        rw [digits, if_neg hten, hdiv, hmod, hc.2, ← List.append_assoc, ← hzeros]

theorem all_isDigit_zeros_digits (zeros n : Nat) :
    (List.replicate zeros '0' ++ digits n).all isDigit = true := by
  rw [List.all_append, all_isDigit_digits, List.all_replicate]
  simp [show isDigit '0' = true from rfl]

theorem readNat?_eq_some_iff {s : List Char} {n : Nat} :
    readNat? s = some n ↔ ∃ zeros, s = List.replicate zeros '0' ++ digits n := by
  unfold readNat?
  constructor
  · intro h
    split at h
    · rename_i hs
      cases h
      exact exists_zeros hs.1 (List.all_eq_true.mp hs.2)
    · cases h
  · rintro ⟨zeros, rfl⟩
    have hne : List.replicate zeros '0' ++ digits n ≠ [] := by simp [digits_ne_nil]
    rw [if_pos ⟨hne, all_isDigit_zeros_digits zeros n⟩, ofDigits_zeros_digits]

/-- What is read as a number writes it. -/
theorem readUnsigned?_eq_some_iff {s : List Char} {n : Nat} :
    readUnsigned? s = some n ↔ Writes s n := by
  unfold readUnsigned? Writes
  split
  · rename_i r
    rw [readNat?_eq_some_iff]
    refine exists_congr fun zeros => ?_
    have hplus : '+' :: r ≠ List.replicate zeros '0' ++ digits n := by
      intro h
      have hall := all_isDigit_zeros_digits zeros n
      rw [← h] at hall
      exact absurd (List.all_eq_true.mp hall '+' List.mem_cons_self) (by decide)
    simp [hplus]
  · rename_i hs
    rw [readNat?_eq_some_iff]
    refine exists_congr fun zeros => ?_
    have hplus : s ≠ '+' :: (List.replicate zeros '0' ++ digits n) := hs _
    simp [hplus]

end Decimal

/-! ## Answers -/

namespace Terminal

/-- The answer is the number of the choice, counted from one; numbers have 64 bits. -/
def Numbers (choices : List Choice) (answer : List Char) (c : Choice) : Prop :=
  ∃ n, Decimal.Writes answer (n + 1) ∧ n + 1 < 2 ^ 64 ∧ choices[n]? = some c

/-- The answer is the key of the choice. -/
def Names (choices : List Choice) (answer : List Char) (c : Choice) : Prop :=
  c ∈ choices ∧ c.key = String.ofList answer

/-- The answer is the letter that declines. -/
def Declines (answer : List Char) : Prop :=
  answer = ['q'] ∨ answer = ['Q']

/-- The answer decides something. -/
def Decisive (choices : List Choice) (answer : List Char) : Prop :=
  answer = [] ∨ (∃ c, Numbers choices answer c) ∨ (∃ c, Names choices answer c) ∨ Declines answer

/-- What an answer decides: a key, or to decline. A number wins over a key, and a key over the
letter that declines. -/
inductive Decides (choices : List Choice) (answer : List Char) : Option String → Prop
  /-- The empty answer takes the first choice. -/
  | default {c : Choice} {others : List Choice} (h : answer = []) (hc : choices = c :: others) :
      Decides choices answer (some c.key)
  /-- A number takes its choice. -/
  | numbered {c : Choice} (hc : Numbers choices answer c) : Decides choices answer (some c.key)
  /-- A key takes its choice. -/
  | named {c : Choice} (h : answer ≠ []) (hnumber : ∀ c, ¬ Numbers choices answer c)
      (hc : Names choices answer c) : Decides choices answer (some c.key)
  /-- The letter declines. -/
  | declined (hname : ∀ c, ¬ Names choices answer c) (h : Declines answer) :
      Decides choices answer none

section Verdict

variable {choices : List Choice} {answer : List Char}

theorem numbered?_eq_some_iff {c : Choice} :
    numbered? choices answer = some c ↔ Numbers choices answer c := by
  unfold numbered? Numbers
  cases h : Decimal.readUnsigned? answer with
  | none =>
    have hnone : ∀ n, ¬ Decimal.Writes answer n := fun n hn => by
      rw [Decimal.readUnsigned?_eq_some_iff.mpr hn] at h
      cases h
    simp [hnone]
  | some m =>
    have hwrites : ∀ n, Decimal.Writes answer n ↔ m = n := fun n => by
      rw [← Decimal.readUnsigned?_eq_some_iff, h, Option.some_inj]
    simp only [hwrites]
    constructor
    · intro hc
      split at hc
      · rename_i hm
        refine ⟨m - 1, by omega, ?_, hc⟩
        exact (Nat.sub_add_cancel hm.1).symm ▸ hm.2
      · cases hc
    · rintro ⟨n, rfl, hn, hc⟩
      exact (if_pos ⟨Nat.succ_pos n, hn⟩).trans hc

theorem numbered?_eq_none_iff :
    numbered? choices answer = none ↔ ∀ c, ¬ Numbers choices answer c := by
  rw [Option.eq_none_iff_forall_ne_some]
  exact forall_congr' fun c => not_congr numbered?_eq_some_iff

/-- The letter that declines is no number. -/
theorem not_numbers_of_declines (h : Declines answer) (c : Choice) :
    ¬ Numbers choices answer c := by
  rintro ⟨n, hn, -⟩
  have hread := Decimal.readUnsigned?_eq_some_iff.mpr hn
  rcases h with rfl | rfl <;> cases hread

/-- A number is not empty. -/
theorem ne_nil_of_numbers {c : Choice} (h : Numbers choices answer c) : answer ≠ [] := by
  rintro rfl
  obtain ⟨n, hn, -⟩ := h
  have hread := Decimal.readUnsigned?_eq_some_iff.mpr hn
  cases hread

theorem names_of_find? {c : Choice}
    (h : (choices.find? fun c => c.key == String.ofList answer) = some c) :
    Names choices answer c :=
  ⟨List.mem_of_find?_eq_some h, by simpa using List.find?_some h⟩

theorem find?_key_eq_none_iff :
    (choices.find? fun c => c.key == String.ofList answer) = none ↔
      ∀ c, ¬ Names choices answer c := by
  simp [Names]

/-- **What an answer decides** is what the terminal makes of it. -/
theorem verdict?_eq_some_iff (hne : choices ≠ []) {key : Option String} :
    verdict? choices answer = some key ↔ Decides choices answer key := by
  unfold verdict? picked?
  constructor
  · intro h
    split at h
    · rename_i hempty
      cases h
      obtain ⟨c, others, rfl⟩ := List.exists_cons_of_ne_nil hne
      exact .default (List.isEmpty_iff.mp hempty) rfl
    · rename_i hempty
      have hanswer : answer ≠ [] := fun e => hempty (List.isEmpty_iff.mpr e)
      cases hnumbered : numbered? choices answer with
      | some c =>
        simp only [hnumbered] at h
        cases h
        exact .numbered (numbered?_eq_some_iff.mp hnumbered)
      | none =>
        simp only [hnumbered] at h
        cases hnamed : choices.find? fun c => c.key == String.ofList answer with
        | some c =>
          simp only [hnamed] at h
          cases h
          exact .named hanswer (numbered?_eq_none_iff.mp hnumbered) (names_of_find? hnamed)
        | none =>
          simp only [hnamed] at h
          split at h
          · rename_i hdeclines
            cases h
            exact .declined (find?_key_eq_none_iff.mp hnamed) hdeclines
          · cases h
  · intro h
    cases h with
    | default h hc =>
      subst h hc
      rfl
    | numbered hc =>
      rw [if_neg (by simpa using ne_nil_of_numbers hc), numbered?_eq_some_iff.mpr hc]
    | @named c h hnumber hc =>
      rw [if_neg (by simpa using h), numbered?_eq_none_iff.mpr hnumber]
      cases hnamed : choices.find? fun c => c.key == String.ofList answer with
      | none => exact absurd hc (find?_key_eq_none_iff.mp hnamed c)
      | some c' =>
        show some (some c'.key) = some (some c.key)
        rw [(names_of_find? hnamed).2, hc.2]
    | declined hname h =>
      have hanswer : ¬ answer.isEmpty = true := by
        rcases h with rfl | rfl <;> simp
      rw [if_neg hanswer, numbered?_eq_none_iff.mpr (not_numbers_of_declines h),
        find?_key_eq_none_iff.mpr hname]
      exact if_pos h

/-- The answers that decide something are the decisive ones. -/
theorem decisive_iff (hne : choices ≠ []) :
    Decisive choices answer ↔ ∃ key, Decides choices answer key := by
  constructor
  · intro h
    by_cases hanswer : answer = []
    · obtain ⟨c, others, hc⟩ := List.exists_cons_of_ne_nil hne
      exact ⟨_, .default hanswer hc⟩
    by_cases hnumber : ∃ c, Numbers choices answer c
    · obtain ⟨c, hc⟩ := hnumber
      exact ⟨_, .numbered hc⟩
    by_cases hname : ∃ c, Names choices answer c
    · obtain ⟨c, hc⟩ := hname
      exact ⟨_, .named hanswer (not_exists.mp hnumber) hc⟩
    · have hdeclines : Declines answer :=
        ((h.resolve_left hanswer).resolve_left hnumber).resolve_left hname
      exact ⟨_, .declined (not_exists.mp hname) hdeclines⟩
  · rintro ⟨key, h⟩
    cases h with
    | default h _ => exact Or.inl h
    | numbered hc => exact Or.inr (Or.inl ⟨_, hc⟩)
    | named _ _ hc => exact Or.inr (Or.inr (Or.inl ⟨_, hc⟩))
    | declined _ h => exact Or.inr (Or.inr (Or.inr h))

/-- **An answer that decides nothing** is one that the terminal does not know. -/
theorem verdict?_eq_none_iff (hne : choices ≠ []) :
    verdict? choices answer = none ↔ ¬ Decisive choices answer := by
  rw [decisive_iff hne, Option.eq_none_iff_forall_ne_some, not_exists]
  exact forall_congr' fun key => not_congr (verdict?_eq_some_iff hne)

end Verdict

end Terminal

end SchemaMigration
