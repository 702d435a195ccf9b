/-!
# Blank characters

White space in the Unicode sense, and its removal at the ends of a text. Texts are lists of
characters here, so that what a function keeps and drops can be reasoned about directly.
-/

namespace SchemaMigration.Text

/-- The character is white space. -/
def isBlank (c : Char) : Bool :=
  let n := c.toNat
  (decide (9 ≤ n) && decide (n ≤ 13)) || n == 0x20 || n == 0x85 || n == 0xA0 || n == 0x1680 ||
    (decide (0x2000 ≤ n) && decide (n ≤ 0x200A)) || n == 0x2028 || n == 0x2029 ||
    n == 0x202F || n == 0x205F || n == 0x3000

/-- The text without its leading blanks. -/
def trimStart (s : List Char) : List Char :=
  s.dropWhile isBlank

/-- The text without its trailing blanks. -/
def trimEnd (s : List Char) : List Char :=
  (s.reverse.dropWhile isBlank).reverse

/-- The text without the blanks at its ends. -/
def trim (s : List Char) : List Char :=
  trimEnd (trimStart s)

/-- One blank or more at the front, taken off; `none` where the text does not start with one. -/
def skipBlanks? : List Char → Option (List Char)
  | [] => none
  | c :: r => if isBlank c then some (trimStart r) else none

theorem isBlank_space : isBlank ' ' = true := rfl

theorem trimStart_cons_of_not_blank {c : Char} {r : List Char} (h : isBlank c = false) :
    trimStart (c :: r) = c :: r := by
  simp [trimStart, h]

/-- Blanks are taken off the front only as far as the first character that is none. -/
theorem trimStart_append_cons {c : Char} (hc : isBlank c = false) (s t : List Char) :
    trimStart (s ++ c :: t) = trimStart s ++ c :: t := by
  induction s with
  | nil => exact trimStart_cons_of_not_blank hc
  | cons d r ih =>
    by_cases hd : isBlank d = true
    · simpa [trimStart, hd] using ih
    · rw [List.cons_append, trimStart_cons_of_not_blank (eq_false_of_ne_true hd),
        trimStart_cons_of_not_blank (eq_false_of_ne_true hd), List.cons_append]

/-- Blanks are taken off the end only as far as the last character that is none. -/
theorem trimEnd_append_cons {c : Char} (hc : isBlank c = false) (s t : List Char) :
    trimEnd (s ++ c :: t) = s ++ c :: trimEnd t := by
  have hreverse : (s ++ c :: t).reverse = t.reverse ++ c :: s.reverse := by simp
  show (trimStart (s ++ c :: t).reverse).reverse = s ++ c :: (trimStart t.reverse).reverse
  rw [hreverse, trimStart_append_cons hc]
  simp

end SchemaMigration.Text
