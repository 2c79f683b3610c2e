import Flowchart.Text.Quoted
import Flowchart.Yaml.Form

/-!
Writing an entry of a mapping whose value is text. The value is plain if it reads back as the same text
that way, between single quotes if all its characters are visible, and otherwise between double quotes
with escapes; all of them ASCII. Lines are folded at spaces behind column 80.
-/
namespace Flowchart.Yaml.Entry

/-- How a value is written. -/
inductive Style where
  | plain | single | double
  deriving DecidableEq, Repr

/-- The column behind which lines are folded. -/
def width : Nat := 80

/-- The spaces in front of every line but the first. -/
def margin : List Char := [' ', ' ']

/-- Marks that a plain value cannot start with. -/
def isStartMark (c : Char) : Bool :=
  "#,[]\x7b\x7d&*!|>'\"%@\x60".toList.contains c

/-- Marks that no plain value can start with if a gap follows them. -/
def isGapMark (c : Char) : Bool :=
  c = '?' || c = ':' || c = '-'

/-- A mark inside a value that would end it, given the characters in front of and behind it. -/
def endsPlain (before c after : Char) : Bool :=
  (c = ':' && isGap after) || (c = '#' && isGap before)

/-- The marks that would end a plain value, anywhere behind its first character. -/
def hasEndMark (before : Char) : List Char → Bool
  | [] => false
  | c :: rest => endsPlain before c (rest.headD '\x00') || hasEndMark c rest

/-- Marks that keep a value from being plain. -/
def hasMarks : List Char → Bool
  | [] => false
  | c :: rest =>
    ["---".toList, "...".toList].contains ((c :: rest).take 3) || isStartMark c ||
      (isGapMark c && isGap (rest.headD '\x00')) || hasEndMark c rest

/-- Spaces and line ends next to each other: which order stands in front. -/
def areNeighbours (first second : Char) (cs : List Char) : Bool :=
  (cs.zip cs.tail).contains (first, second)

def isVisible (c : Char) : Bool :=
  ' ' ≤ c && c ≤ '~'

/-- The style for a value without spaces at its ends. -/
def styleOf (cs : List Char) : Style :=
  if !cs.all fun c => isVisible c || c = '\n' then .double
  else if areNeighbours ' ' '\n' cs || areNeighbours '\n' ' ' cs then .double
  else
    let atEnds := [cs.head?, cs.getLast?]
    let isPlain :=
      Form.ofPlain (String.ofList cs) = .text && !cs.contains '\n' && !hasMarks cs &&
        !atEnds.contains (some ' ')
    if isPlain then .plain else .single

def doubled (c : Char) : List Char :=
  if c = '\'' then ['\'', '\''] else [c]

/-- Writes runs of equal kind from a column on. A single space, but not the first or the last run, becomes
a line end behind the width; a run of line ends gets one more. -/
def foldRuns (write : Char → List Char) (column : Nat) (isFirst : Bool) : List (List Char) → List Char
  | [] => []
  | [' '] :: next :: more =>
    if width < column && !isFirst then
      '\n' :: margin ++ foldRuns write margin.length false (next :: more)
    else ' ' :: foldRuns write (column + 1) false (next :: more)
  | run :: more =>
    if run.head? = some '\n' then
      '\n' :: run ++ margin ++ foldRuns write margin.length false more
    else
      let written := run.flatMap write
      written ++ foldRuns write (column + written.length) false more

/-- Runs of spaces, of line ends and of other characters. -/
def runs (cs : List Char) : List (List Char) :=
  let kind (c : Char) : Nat := if c = ' ' then 1 else if c = '\n' then 2 else 0
  cs.splitBy fun a b => kind a = kind b

/-- Letters that stand for a character behind a backslash. -/
def shortEscapes : List (Char × Char) :=
  [('\x00', '0'), ('\x07', 'a'), ('\x08', 'b'), ('\t', 't'), ('\n', 'n'), ('\x0b', 'v'), ('\x0c', 'f'),
    ('\r', 'r'), ('\x1b', 'e'), ('"', '"'), ('\\', '\\'), ('\u0085', 'N'), ('\u00a0', '_'),
    ('\u2028', 'L'), ('\u2029', 'P')]

/-- How a character stands between double quotes, unless it stands for itself. -/
def escape? (c : Char) : Option (List Char) :=
  match shortEscapes.lookup c with
  | some letter => some ['\\', letter]
  | none =>
    let digits (width : Nat) := (Text.hexDigits width c.toNat).map Char.toUpper
    if isVisible c then none
    else if c.toNat < 0x100 then some ('\\' :: 'x' :: digits 2)
    else if c.toNat < 0x10000 then some ('\\' :: 'u' :: digits 4)
    else some ('\\' :: 'U' :: digits 8)

/-- The rest of a value between double quotes: `held` characters are not written yet. Behind the width a
line ends with a backslash, and a space at the head of the next line has one in front of it. -/
def doubleFrom (column : Nat) (isFirst : Bool) (held : List Char) : List Char → List Char
  | [] => held
  | c :: rest =>
    match escape? c with
    | some escaped =>
      let written := held ++ escaped
      let column := column + written.length
      if !isFirst && !rest.isEmpty && width + 1 < column then
        let guard := if rest.head? = some ' ' then ['\\'] else []
        written ++ '\\' :: '\n' :: margin ++ guard ++
          doubleFrom (margin.length + guard.length) false [] rest
      else written ++ doubleFrom column false [] rest
    | none =>
      if !isFirst && !rest.isEmpty && (c = ' ' || held.isEmpty) && width < column + held.length then
        let guard := if c = ' ' then ['\\'] else []
        held ++ '\\' :: '\n' :: margin ++ guard ++
          doubleFrom (margin.length + guard.length) false [c] rest
      else doubleFrom column false (held ++ [c]) rest

def value (column : Nat) (text : String) : List Char :=
  let cs := text.toList
  match styleOf cs with
  | .plain => ' ' :: foldRuns (fun c => [c]) (column + 1) true (runs cs)
  | .single => " '".toList ++ foldRuns doubled (column + 2) true (runs cs) ++ ['\'']
  | .double => " \"".toList ++ doubleFrom (column + 2) true [] cs ++ ['"']

/-- The text of a mapping with a single entry. -/
def render (key text : String) : String :=
  String.ofList (key.toList ++ ':' :: value (key.length + 1) text ++ ['\n'])

end Flowchart.Yaml.Entry
