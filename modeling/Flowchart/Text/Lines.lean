/-!
Lines of a text. A line ends at a line feed, a carriage return, the two together, a vertical tab, a
form feed, one of the separators U+001C to U+001E, the next line control or one of Unicode's two
line separators; the last line may lack its end. `splitLines` loses nothing: bodies and ends in
order are the text.
-/
namespace Flowchart.Text

def isLineEnd (c : Char) : Bool :=
  let n := c.toNat
  (10 ≤ n && n ≤ 13) || (28 ≤ n && n ≤ 30) || n == 0x85 || n == 0x2028 || n == 0x2029

/-- A line and what ends it: nothing only for a last line without an end. -/
structure Line where
  body : List Char
  ending : List Char
  deriving DecidableEq, Repr

namespace Line

def chars (line : Line) : List Char :=
  line.body ++ line.ending

/-- The line with its end, as text. -/
def text (line : Line) : String :=
  String.ofList line.chars

/-- The line without its end, as text. -/
def bodyText (line : Line) : String :=
  String.ofList line.body

end Line

/-- The lines in order. No text has no lines, and an end opens no further line. -/
def splitLines : List Char → List Line
  | [] => []
  | '\r' :: '\n' :: rest => ⟨[], ['\r', '\n']⟩ :: splitLines rest
  | c :: rest =>
    if isLineEnd c then ⟨[], [c]⟩ :: splitLines rest
    else match splitLines rest with
      | [] => [⟨[c], []⟩]
      | line :: lines => ⟨c :: line.body, line.ending⟩ :: lines

theorem flatMap_chars_splitLines (cs : List Char) : (splitLines cs).flatMap Line.chars = cs := by
  fun_induction splitLines cs with
  | case1 => rfl
  | case2 rest ih => simp [Line.chars, ih]
  | case3 c rest _ ends ih => simp [Line.chars, ih]
  | case4 c rest _ ends none ih => simp_all [Line.chars]
  | case5 c rest _ ends line lines some ih => simp_all [Line.chars]

/-- The lines of a text without their ends. -/
def lineBodies (text : String) : List String :=
  (splitLines text.toList).map Line.bodyText

/-- Every line end written with a carriage return becomes a single line feed. -/
def unifyNewlines : List Char → List Char
  | [] => []
  | '\r' :: '\n' :: rest => '\n' :: unifyNewlines rest
  | c :: rest => (if c = '\r' then '\n' else c) :: unifyNewlines rest

theorem not_mem_unifyNewlines (cs : List Char) : '\r' ∉ unifyNewlines cs := by
  fun_induction unifyNewlines cs with
  | case1 => simp
  | case2 rest ih => simpa using ih
  | case3 c rest _ ih =>
    simp only [List.mem_cons, not_or]
    exact ⟨by split <;> simp_all [eq_comm], ih⟩

theorem unifyNewlines_of_not_mem {cs : List Char} (absent : '\r' ∉ cs) : unifyNewlines cs = cs := by
  fun_induction unifyNewlines cs with
  | case1 => rfl
  | case2 => simp at absent
  | case3 c rest _ ih =>
    obtain ⟨differ, absent⟩ := List.ne_and_not_mem_of_not_mem_cons absent
    rw [if_neg differ.symm, ih absent]

end Flowchart.Text
