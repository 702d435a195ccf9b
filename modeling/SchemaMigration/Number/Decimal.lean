/-!
# Decimal integers

Natural numbers and integers as decimal digits, and their reading.

* `digits` writes a number without leading zeros; `showInt` puts a minus sign before a negative one.
* `readNat?` takes any run of digits, leading zeros included. `readSigned?` also takes one leading
  sign, plus or minus; `readUnsigned?` takes a leading plus only.
* **`readNat?_digits`**, **`readSigned?_showInt`**: what is written reads back.
-/

namespace SchemaMigration.Decimal

/-- The digit of a number below ten. -/
def digitChar (d : Nat) : Char :=
  Char.ofNat (48 + d)

/-- One of the ten ASCII digits. -/
def isDigit (c : Char) : Bool :=
  decide (48 ≤ c.toNat) && decide (c.toNat ≤ 57)

/-- The value of a digit. -/
def digitValue (c : Char) : Nat :=
  c.toNat - 48

/-- The decimal digits of `n`, the most significant first. -/
def digits (n : Nat) : List Char :=
  if n < 10 then [digitChar n] else digits (n / 10) ++ [digitChar (n % 10)]
termination_by n

/-- The number that a run of digits denotes. -/
def ofDigits (s : List Char) : Nat :=
  s.foldl (fun v c => 10 * v + digitValue c) 0

/-- A number in digits alone: at least one, leading zeros allowed. -/
def readNat? (s : List Char) : Option Nat :=
  if s ≠ [] ∧ s.all isDigit = true then some (ofDigits s) else none

/-- A number with an optional leading plus. -/
def readUnsigned? : List Char → Option Nat
  | '+' :: r => readNat? r
  | s => readNat? s

/-- A number with an optional leading sign. -/
def readSigned? : List Char → Option Int
  | '-' :: r => (readNat? r).map fun n => -(n : Int)
  | '+' :: r => (readNat? r).map fun n => (n : Int)
  | s => (readNat? s).map fun n => (n : Int)

/-- The decimal text of an integer. -/
def showInt : Int → List Char
  | .ofNat n => digits n
  | .negSucc n => '-' :: digits (n + 1)

/-- The decimal text of a natural number. -/
def showNat (n : Nat) : String :=
  String.ofList (digits n)

theorem digitValue_digitChar_all : ∀ d, d < 10 → digitValue (digitChar d) = d := by decide

theorem isDigit_digitChar_all : ∀ d, d < 10 → isDigit (digitChar d) = true := by decide

theorem digits_ne_nil (n : Nat) : digits n ≠ [] := by
  rw [digits]
  split <;> simp

theorem all_isDigit_digits (n : Nat) : (digits n).all isDigit = true := by
  induction n using Nat.strongRecOn with
  | _ n ih =>
    rw [digits]
    split
    · rename_i h
      simp [isDigit_digitChar_all n h]
    · rename_i h
      simp [ih (n / 10) (by omega), isDigit_digitChar_all (n % 10) (by omega)]

theorem ofDigits_append_digit (s : List Char) (c : Char) :
    ofDigits (s ++ [c]) = 10 * ofDigits s + digitValue c := by
  simp [ofDigits]

theorem ofDigits_digits (n : Nat) : ofDigits (digits n) = n := by
  induction n using Nat.strongRecOn with
  | _ n ih =>
    rw [digits]
    split
    · rename_i h
      simp [ofDigits, digitValue_digitChar_all n h]
    · rename_i h
      rw [ofDigits_append_digit, ih (n / 10) (by omega),
        digitValue_digitChar_all (n % 10) (by omega)]
      omega

/-- Digits read back as the number they were written for. -/
theorem readNat?_digits (n : Nat) : readNat? (digits n) = some n := by
  simp [readNat?, digits_ne_nil, all_isDigit_digits, ofDigits_digits]

theorem readSigned?_of_digit {c : Char} {r : List Char} (h : isDigit c = true) :
    readSigned? (c :: r) = (readNat? (c :: r)).map fun n => (n : Int) := by
  have hm : c ≠ '-' := by rintro rfl; exact absurd h (by decide)
  have hp : c ≠ '+' := by rintro rfl; exact absurd h (by decide)
  unfold readSigned?
  split
  · rename_i heq; exact absurd (List.cons.inj heq).1 hm
  · rename_i heq; exact absurd (List.cons.inj heq).1 hp
  · rfl

/-- The text of an integer reads back as that integer. -/
theorem readSigned?_showInt (n : Int) : readSigned? (showInt n) = some n := by
  cases n with
  | ofNat n =>
    have hd := all_isDigit_digits n
    have hr := readNat?_digits n
    show readSigned? (digits n) = _
    cases h : digits n with
    | nil => exact absurd h (digits_ne_nil n)
    | cons c r =>
      rw [h] at hd hr
      simp only [List.all_cons, Bool.and_eq_true] at hd
      rw [readSigned?_of_digit hd.1, hr]
      rfl
  | negSucc n =>
    simp [showInt, readSigned?, readNat?_digits, Int.negSucc_eq]

end SchemaMigration.Decimal
