/-!
# Doubled quotes

A quoted text stands between two quote characters, and a quote inside it is written twice. This is
the escape rule of SQL for names (double quotes) and for text literals (single quotes).

* `double` writes every quote twice; `quoted` adds the outer quotes.
* `collapse` reads each pair of quotes as one and leaves a quote that stands alone.
* **`collapse_double`**: collapsing what was doubled gives the text back.
-/

namespace SchemaMigration.Text

/-- Every `quote` written twice. -/
def double (quote : Char) : List Char → List Char
  | [] => []
  | c :: r => if c = quote then quote :: quote :: double quote r else c :: double quote r

/-- The text between quotes, its own quotes doubled. -/
def quoted (quote : Char) (s : List Char) : List Char :=
  quote :: double quote s ++ [quote]

/-- Each pair of quotes becomes one quote, from left to right. -/
def collapse (quote : Char) : List Char → List Char
  | [] => []
  | [c] => [c]
  | c :: d :: r =>
    if c = quote ∧ d = quote then quote :: collapse quote r else c :: collapse quote (d :: r)

theorem double_cons_quote (quote : Char) (r : List Char) :
    double quote (quote :: r) = quote :: quote :: double quote r := by
  simp [double]

theorem double_cons_of_ne {quote c : Char} (h : c ≠ quote) (r : List Char) :
    double quote (c :: r) = c :: double quote r := by
  simp [double, h]

theorem collapse_cons_of_ne {quote c : Char} (h : c ≠ quote) (s : List Char) :
    collapse quote (c :: s) = c :: collapse quote s := by
  cases s with
  | nil => rfl
  | cons d r => simp [collapse, h]

/-- Doubling is undone by collapsing. -/
theorem collapse_double (quote : Char) (s : List Char) :
    collapse quote (double quote s) = s := by
  induction s with
  | nil => rfl
  | cons c r ih =>
    by_cases h : c = quote
    · subst h
      simp [double, collapse, ih]
    · rw [double_cons_of_ne h, collapse_cons_of_ne h, ih]

end SchemaMigration.Text
