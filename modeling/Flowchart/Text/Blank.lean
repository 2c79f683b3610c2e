/-!
Blank characters and trimming. A character is blank when Unicode calls it white space or when it is
one of the four information separators U+001C to U+001F.
-/
namespace Flowchart.Text

/-- White space of any kind, the line ends included. -/
def isBlank (c : Char) : Bool :=
  let n := c.toNat
  (9 ≤ n && n ≤ 13) || (28 ≤ n && n ≤ 32) || n == 0x85 || n == 0xA0 || n == 0x1680 ||
    (0x2000 ≤ n && n ≤ 0x200A) || n == 0x2028 || n == 0x2029 || n == 0x202F || n == 0x205F ||
    n == 0x3000

theorem isBlank_of_isWhitespace {c : Char} (h : c.isWhitespace = true) : isBlank c = true := by
  simp only [Char.isWhitespace, Bool.or_eq_true, decide_eq_true_eq] at h
  rcases h with ((rfl | rfl) | rfl) | rfl <;> rfl

/-- The characters of a list without those at its end that satisfy the predicate. -/
def dropTail (p : Char → Bool) (cs : List Char) : List Char :=
  (cs.reverse.dropWhile p).reverse

/-- The list without the blanks at either end. -/
def trimChars (cs : List Char) : List Char :=
  dropTail isBlank (cs.dropWhile isBlank)

/-- A blank that may stand around a numeral: any of them but the information separators. -/
def isNumeralBlank (c : Char) : Bool :=
  isBlank c && !(28 ≤ c.toNat && c.toNat ≤ 31)

/-- A numeral without the blanks around it. -/
def trimNumeral (cs : List Char) : List Char :=
  dropTail isNumeralBlank (cs.dropWhile isNumeralBlank)

/-- The text without the blanks at either end. -/
def trim (text : String) : String :=
  String.ofList (trimChars text.toList)

/-- Nothing but blanks, or nothing at all. -/
def isBlankText (text : String) : Bool :=
  text.toList.all isBlank

end Flowchart.Text
