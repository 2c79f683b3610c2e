/-!
A place in a YAML text. Behind the end of the text every look-ahead sees the null character, which no
text may contain.
-/
namespace Flowchart.Yaml

/-- What is left of a text, and how much of it lies behind. Lines and columns count from zero. -/
structure Cursor where
  rest : List Char
  index : Nat := 0
  line : Nat := 0
  column : Nat := 0
  deriving Repr

def isBreak (c : Char) : Bool :=
  c = '\r' || c = '\n' || c = '\u0085' || c = '\u2028' || c = '\u2029'

/-- The end of a line or of the text. -/
def isLineEnd (c : Char) : Bool :=
  c = '\x00' || isBreak c

/-- A space, or the end of a line or of the text. -/
def isSpaceOrEnd (c : Char) : Bool :=
  c = ' ' || isLineEnd c

/-- A space or a tab, or the end of a line or of the text. -/
def isGap (c : Char) : Bool :=
  c = '\t' || isSpaceOrEnd c

def isWhite (c : Char) : Bool :=
  c = ' ' || c = '\t'

/-- A character of names: a letter, a digit, a hyphen or an underscore, all of them ASCII. -/
def isNameChar (c : Char) : Bool :=
  c.isAlphanum || c = '-' || c = '_'

def isHexDigit (c : Char) : Bool :=
  c.isDigit || ('a' ≤ c && c ≤ 'f') || ('A' ≤ c && c ≤ 'F')

def hexValue (digits : List Char) : Nat :=
  digits.foldl
    (fun n c =>
      16 * n +
        if c.isDigit then c.toNat - '0'.toNat
        else if 'a' ≤ c then c.toNat - 'a'.toNat + 10
        else c.toNat - 'A'.toNat + 10)
    0

namespace Cursor

/-- The character a given number of places ahead. -/
def peek (cursor : Cursor) (ahead : Nat := 0) : Char :=
  cursor.rest.getD ahead '\x00'

/-- Steps over a character. A byte order mark takes no column. -/
def step (cursor : Cursor) : Cursor :=
  match cursor.rest with
  | [] => cursor
  | c :: rest =>
    let index := cursor.index + 1
    if c = '\n' || c = '\u0085' || c = '\u2028' || c = '\u2029' ||
        (c = '\r' && rest.head? ≠ some '\n') then
      ⟨rest, index, cursor.line + 1, 0⟩
    else ⟨rest, index, cursor.line, if c = '\uFEFF' then cursor.column else cursor.column + 1⟩

def forward (cursor : Cursor) : Nat → Cursor
  | 0 => cursor
  | n + 1 => cursor.step.forward n

/-- Takes the characters at the head that satisfy a predicate. -/
def span (cursor : Cursor) (p : Char → Bool) : List Char × Cursor :=
  let taken := cursor.rest.takeWhile p
  (taken, cursor.forward taken.length)

/-- Steps over the characters at the head that satisfy a predicate. -/
def skip (cursor : Cursor) (p : Char → Bool) : Cursor :=
  (cursor.span p).2

/-- Steps over a comment, if one starts here. -/
def skipComment (cursor : Cursor) : Cursor :=
  if cursor.peek = '#' then cursor.skip (!isBreak ·) else cursor

/-- Steps over the end of a line, if there is one: what it counts as in text. -/
def lineBreak (cursor : Cursor) : List Char × Cursor :=
  let c := cursor.peek
  if c = '\r' && cursor.peek 1 = '\n' then (['\n'], cursor.forward 2)
  else if c = '\r' || c = '\n' || c = '\u0085' then (['\n'], cursor.step)
  else if c = '\u2028' || c = '\u2029' then ([c], cursor.step)
  else ([], cursor)

/-- A line that separates documents starts here: three hyphens or three points, and a gap. -/
def atSeparator (cursor : Cursor) : Bool :=
  let mark := cursor.rest.take 3
  (mark = ['-', '-', '-'] || mark = ['.', '.', '.']) && isGap (cursor.peek 3)

end Cursor
end Flowchart.Yaml
