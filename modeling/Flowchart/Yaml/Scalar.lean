import Flowchart.Yaml.Token

/-!
Scalars as they are written: plain, between single or double quotes, or as an indented block. Line ends
inside the first three are folded into spaces, and blank lines into line ends.
-/
namespace Flowchart.Yaml.Scalar

open Text (CodePoint codePoints)

abbrev Scanned := Except Fault (List Char × Cursor)

/-- Blank lines between the lines of a quoted scalar. Documents may not be separated there. -/
def quotedBreaks (fuel : Nat) (cursor : Cursor) : Scanned :=
  match fuel with
  | 0 => .ok ([], cursor)
  | fuel + 1 =>
    if cursor.atSeparator then .error .malformed
    else
      let behind := cursor.skip isWhite
      if isBreak behind.peek then do
        let (text, behind) := behind.lineBreak
        let (more, behind) ← quotedBreaks fuel behind
        return (text ++ more, behind)
      else .ok ([], behind)

/-- What a line end becomes, given the blank lines behind it. -/
def foldBreak (first breaks : List Char) : List Char :=
  if first ≠ ['\n'] then first ++ breaks
  else if breaks.isEmpty then [' ']
  else breaks

/-- Spaces or line ends inside a quoted scalar. -/
def quotedSpaces (cursor : Cursor) : Scanned :=
  let (spaces, behind) := cursor.span isWhite
  let c := behind.peek
  if c = '\x00' then .error .malformed
  else if isBreak c then do
    let (first, behind) := behind.lineBreak
    let (breaks, behind) ← quotedBreaks (behind.rest.length + 1) behind
    return (foldBreak first breaks, behind)
  else .ok (spaces, behind)

/-- Characters that a backslash and a letter stand for. -/
def escapes : List (Char × Char) :=
  [('0', '\x00'), ('a', '\x07'), ('b', '\x08'), ('t', '\t'), ('\t', '\t'), ('n', '\n'), ('v', '\x0b'),
    ('f', '\x0c'), ('r', '\r'), ('e', '\x1b'), (' ', ' '), ('"', '"'), ('\\', '\\'), ('/', '/'),
    ('N', '\u0085'), ('_', '\u00a0'), ('L', '\u2028'), ('P', '\u2029')]

/-- How many digits the code point behind a backslash and a letter has. -/
def escapeLength? (c : Char) : Option Nat :=
  if c = 'x' then some 2 else if c = 'u' then some 4 else if c = 'U' then some 8 else none

/-- What a backslash stands for together with the characters behind it. -/
def escape (cursor : Cursor) : Except Fault (List CodePoint × Cursor) :=
  let c := cursor.peek
  match escapes.lookup c with
  | some meaning => .ok ([.char meaning], cursor.step)
  | none =>
    match escapeLength? c with
    | some length =>
      let digits := cursor.step.rest.take length
      if digits.length < length || !digits.all isHexDigit then .error .malformed
      else
        let code := hexValue digits
        if 0x110000 ≤ code then .error (.badCodePoint code)
        else .ok ([CodePoint.ofNat code], cursor.step.forward length)
    | none =>
      if isBreak c then do
        let (text, behind) ← quotedBreaks cursor.rest.length cursor.lineBreak.2
        return (codePoints text, behind)
      else .error .malformed

def quotedFrom (quote : Char) (fuel : Nat) (cursor : Cursor) : Except Fault (List CodePoint × Cursor) :=
  match fuel with
  | 0 => .error .malformed
  | fuel + 1 => do
    let c := cursor.peek
    let (text, behind) ←
      if c = '\'' && quote = '\'' && cursor.peek 1 = '\'' then pure (codePoints ['\''], cursor.forward 2)
      else if c = quote then return ([], cursor.step)
      else if c = '\\' && quote = '"' then escape cursor.step
      else if isGap c then
        let (text, behind) ← quotedSpaces cursor
        pure (codePoints text, behind)
      else pure (codePoints [c], cursor.step)
    let (more, behind) ← quotedFrom quote fuel behind
    return (text ++ more, behind)

/-- A quoted scalar; the first character is its quote. -/
def quoted (cursor : Cursor) : Except Fault (List CodePoint × Cursor) :=
  quotedFrom cursor.peek (cursor.rest.length + 1) cursor.step

/-- Blank lines between the lines of a plain scalar, unless a separator of documents follows one. -/
def plainBreaks (fuel : Nat) (cursor : Cursor) : Option (List Char) × Cursor :=
  match fuel with
  | 0 => (some [], cursor)
  | fuel + 1 =>
    if cursor.peek = ' ' then plainBreaks fuel cursor.step
    else if isBreak cursor.peek then
      let (text, behind) := cursor.lineBreak
      if behind.atSeparator then (none, behind)
      else
        let (more, behind) := plainBreaks fuel behind
        (more.map (text ++ ·), behind)
    else (some [], cursor)

/-- Spaces or line ends inside a plain scalar: what they become, whether a line ended, and what follows.
Nothing at all means that the scalar ends. -/
def plainSpaces (cursor : Cursor) : List Char × Bool × Cursor :=
  let (spaces, behind) := cursor.span (· = ' ')
  if isBreak behind.peek then
    let (first, behind) := behind.lineBreak
    if behind.atSeparator then ([], true, behind)
    else
      match plainBreaks (behind.rest.length + 1) behind with
      | (none, behind) => ([], true, behind)
      | (some breaks, behind) => (foldBreak first breaks, true, behind)
  else (spaces, false, behind)

/-- The characters up to the next one that a plain scalar cannot hold. -/
def plainWord (inFlow : Bool) : List Char → List Char
  | [] => []
  | c :: rest =>
    let next := rest.headD '\x00'
    let isFlowMark (c : Char) := [',', '[', ']', '\x7b', '\x7d'].contains c
    if isGap c || (c = ':' && (isGap next || (inFlow && isFlowMark next))) ||
        (inFlow && (c = '?' || isFlowMark c)) then []
    else c :: plainWord inFlow rest

/-- A plain scalar, what follows it, and whether a key may start there. The lines behind the first are
indented by at least the given number of columns. -/
def plainFrom (inFlow : Bool) (indent : Int) (fuel : Nat) (spaces : List Char) (allowKey : Bool)
    (cursor : Cursor) : List Char × Bool × Cursor :=
  match fuel with
  | 0 => ([], allowKey, cursor)
  | fuel + 1 =>
    let word := plainWord inFlow cursor.rest
    if cursor.peek = '#' || word.isEmpty then ([], allowKey, cursor)
    else
      let (between, ended, behind) := plainSpaces (cursor.forward word.length)
      if between.isEmpty || behind.peek = '#' || (!inFlow && behind.column < indent) then
        (spaces ++ word, ended, behind)
      else
        let (more, allowKey, behind) := plainFrom inFlow indent fuel between ended behind
        (spaces ++ word ++ more, allowKey, behind)

def plain (inFlow : Bool) (indent : Int) (cursor : Cursor) : List Char × Bool × Cursor :=
  plainFrom inFlow indent (cursor.rest.length + 1) [] false cursor

/-- What happens to the line ends at the end of a block scalar. -/
inductive Chomping where
  | clip | strip | keep
  deriving DecidableEq, Repr

/-- The sign that asks for a way of chomping. -/
def chomping? (c : Char) : Option Chomping :=
  if c = '+' then some .keep else if c = '-' then some .strip else none

/-- The digit that gives the indentation of a block scalar. -/
def increment? (c : Char) : Option Nat :=
  if c.isDigit then some (c.toNat - '0'.toNat) else none

/-- The head of a block scalar: how its end is chomped and how far it is indented, in either order. -/
def blockHead (cursor : Cursor) : Except Fault ((Chomping × Option Nat) × Cursor) :=
  let c := cursor.peek
  let next := cursor.peek 1
  let (chomping, increment, length) : Chomping × Option Nat × Nat :=
    match chomping? c, increment? c with
    | some chomping, _ =>
      match increment? next with
      | some n => (chomping, some n, 2)
      | none => (chomping, none, 1)
    | none, some n =>
      match chomping? next with
      | some chomping => (chomping, some n, 2)
      | none => (.clip, some n, 1)
    | none, none => (.clip, none, 0)
  let behind := cursor.forward length
  if increment = some 0 || !isSpaceOrEnd behind.peek then .error .malformed
  else .ok ((chomping, increment), behind)

/-- Blank lines in front of a block scalar: their text and the longest run of spaces. -/
def blockIndentation (fuel : Nat) (cursor : Cursor) (longest : Nat) : List Char × Nat × Cursor :=
  match fuel with
  | 0 => ([], longest, cursor)
  | fuel + 1 =>
    if cursor.peek = ' ' then
      let behind := cursor.step
      blockIndentation fuel behind (max longest behind.column)
    else if isBreak cursor.peek then
      let (text, behind) := cursor.lineBreak
      let (more, longest, behind) := blockIndentation fuel behind longest
      (text ++ more, longest, behind)
    else ([], longest, cursor)

/-- Steps over the indentation of a line. -/
def skipIndent (indent : Nat) (cursor : Cursor) : Cursor :=
  cursor.forward ((cursor.rest.take (indent - cursor.column)).takeWhile (· = ' ')).length

def blockBreaks (indent fuel : Nat) (cursor : Cursor) : List Char × Cursor :=
  let start := skipIndent indent cursor
  match fuel with
  | 0 => ([], start)
  | fuel + 1 =>
    if isBreak start.peek then
      let (text, behind) := start.lineBreak
      let (more, behind) := blockBreaks indent fuel behind
      (text ++ more, behind)
    else ([], start)

/-- The lines of a block scalar: their text, the end of the last line, the blank lines behind it, and
what follows. -/
def blockLines (folded : Bool) (indent fuel : Nat) (breaks : List Char) (cursor : Cursor) :
    List Char × List Char × List Char × Cursor :=
  match fuel with
  | 0 => ([], [], breaks, cursor)
  | fuel + 1 =>
    if cursor.column ≠ indent || cursor.peek = '\x00' then ([], [], breaks, cursor)
    else
      let (line, behind) := cursor.span (!isBreak ·)
      let (ending, behind) := behind.lineBreak
      let (following, behind) := blockBreaks indent (behind.rest.length + 1) behind
      if behind.column ≠ indent || behind.peek = '\x00' then
        (breaks ++ line, ending, following, behind)
      else
        let joint :=
          if folded && ending = ['\n'] && !isWhite cursor.peek && !isWhite behind.peek then
            if following.isEmpty then [' '] else []
          else ending
        let (more, ending, following, behind) := blockLines folded indent fuel following behind
        (breaks ++ line ++ joint ++ more, ending, following, behind)

/-- A block scalar inside a block of the given indentation. -/
def block (folded : Bool) (outer : Int) (cursor : Cursor) : Scanned := do
  let ((chomping, increment), behind) ← blockHead cursor.step
  let behind ← Token.scanIgnoredLine behind
  let least := (max (outer + 1) 1).toNat
  let fuel := behind.rest.length + 1
  let (indent, breaks, behind) :=
    match increment with
    | some n =>
      let indent := least + n - 1
      let (breaks, behind) := blockBreaks indent fuel behind
      (indent, breaks, behind)
    | none =>
      let (breaks, longest, behind) := blockIndentation fuel behind 0
      (max least longest, breaks, behind)
  let (text, ending, following, behind) := blockLines folded indent fuel breaks behind
  let tail :=
    match chomping with
    | .clip => ending
    | .strip => []
    | .keep => ending ++ following
  return (text ++ tail, behind)

end Flowchart.Yaml.Scalar
