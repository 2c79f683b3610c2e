import Flowchart.Yaml.Scalar

/-!
The tokens of a YAML text. Columns open and close block collections, and a key is recognised only by the
colon behind it, so the token that announces a key is put in front of tokens that are already there.
-/
namespace Flowchart.Yaml

/-- A place where a key may have started. -/
structure KeyStart where
  /-- How many tokens come before the key. -/
  number : Nat
  /-- A key has to start here, for the line continues a block mapping. -/
  required : Bool
  index : Nat
  line : Nat
  column : Nat
  deriving Repr

/-- What has been read of a text. -/
structure Lexer where
  cursor : Cursor
  tokens : Array Token := #[]
  /-- How many flow collections are open. -/
  flow : Nat := 0
  /-- The columns of the open block collections, innermost first. -/
  indents : List Nat := []
  allowKey : Bool := true
  /-- At most one possible start of a key for each number of open flow collections. -/
  keys : List (Nat × KeyStart) := []

namespace Lexer

abbrev Step := Except Fault Lexer

/-- The column of the innermost block collection; the text as a whole is to the left of all columns. -/
def indent (lexer : Lexer) : Int :=
  match lexer.indents with
  | [] => -1
  | column :: _ => column

def push (lexer : Lexer) (token : Token) : Lexer :=
  { lexer with tokens := lexer.tokens.push token }

/-- Steps over spaces, comments and line ends. -/
def skipIgnored (fuel : Nat) (lexer : Lexer) : Lexer :=
  match fuel with
  | 0 => lexer
  | fuel + 1 =>
    let behind := (lexer.cursor.skip (· = ' ')).skipComment
    if isBreak behind.peek then
      skipIgnored fuel
        { lexer with cursor := behind.lineBreak.2, allowKey := lexer.allowKey || lexer.flow = 0 }
    else { lexer with cursor := behind }

/-- A key spans neither lines nor more than 1024 characters. -/
def isStale (lexer : Lexer) (key : KeyStart) : Bool :=
  key.line ≠ lexer.cursor.line || 1024 < lexer.cursor.index - key.index

/-- Forgets the starts of keys that are too far behind. -/
def dropStale (lexer : Lexer) : Step :=
  let (stale, fresh) := lexer.keys.partition fun (_, key) => lexer.isStale key
  if stale.any (·.2.required) then .error .malformed else .ok { lexer with keys := fresh }

/-- Closes the block collections that start to the right of a column. -/
def unwind (lexer : Lexer) (column : Int) : Lexer :=
  if lexer.flow ≠ 0 then lexer
  else
    let closed := lexer.indents.takeWhile fun (indent : Nat) => column < indent
    { lexer with
      tokens := lexer.tokens ++ closed.map fun _ => Token.blockEnd
      indents := lexer.indents.drop closed.length }

/-- Opens a block collection at a column, unless one is open there. Its token goes to a given place. -/
def openBlock (lexer : Lexer) (column number : Nat) (token : Token) : Lexer :=
  if lexer.indent < column then
    { lexer with
      indents := column :: lexer.indents
      tokens := lexer.tokens.insertIdxIfInBounds number token }
  else lexer

/-- The possible start of a key among the flow collections that are open now. -/
def key? (lexer : Lexer) : Option KeyStart :=
  lexer.keys.lookup lexer.flow

/-- Forgets the possible start of a key. -/
def dropKey (lexer : Lexer) : Step :=
  if lexer.key?.any (·.required) then .error .malformed
  else .ok { lexer with keys := lexer.keys.filter (·.1 ≠ lexer.flow) }

/-- Notes that a key may start here. -/
def saveKey (lexer : Lexer) : Step := do
  if !lexer.allowKey then return lexer
  let lexer ← lexer.dropKey
  let cursor := lexer.cursor
  let required := lexer.flow = 0 && lexer.indent = cursor.column
  let key : KeyStart := ⟨lexer.tokens.size, required, cursor.index, cursor.line, cursor.column⟩
  return { lexer with keys := (lexer.flow, key) :: lexer.keys }

/-- Takes a mark of a given length. -/
def mark (lexer : Lexer) (length : Nat) (token : Token) (allowKey : Bool) : Lexer :=
  { lexer.push token with cursor := lexer.cursor.forward length, allowKey }

/-- Takes a token that a key may consist of. -/
def content (lexer : Lexer) (token : Token) (behind : Cursor) (allowKey : Bool) : Lexer :=
  { lexer.push token with cursor := behind, allowKey }

/-- A mark that separates documents, or the end of them all. -/
def closeAll (lexer : Lexer) : Step :=
  (lexer.unwind (-1)).dropKey

def openFlow (lexer : Lexer) (token : Token) : Step := do
  let lexer ← lexer.saveKey
  return { lexer.mark 1 token true with flow := lexer.flow + 1 }

def closeFlow (lexer : Lexer) (token : Token) : Step := do
  let lexer ← lexer.dropKey
  if lexer.flow = 0 then throw .malformed
  return { lexer.mark 1 token false with flow := lexer.flow - 1 }

/-- In block context an entry or a key stands where a key may start. -/
def enterBlock (lexer : Lexer) (start : Token) : Step :=
  if lexer.flow ≠ 0 then .ok lexer
  else if !lexer.allowKey then .error .malformed
  else .ok (lexer.openBlock lexer.cursor.column lexer.tokens.size start)

def blockEntry (lexer : Lexer) : Step := do
  let lexer ← (← lexer.enterBlock .blockSequenceStart).dropKey
  return lexer.mark 1 .blockEntry true

def explicitKey (lexer : Lexer) : Step := do
  let lexer ← (← lexer.enterBlock .blockMappingStart).dropKey
  return lexer.mark 1 .key (lexer.flow = 0)

/-- A colon. If a key may have started, it did. -/
def value (lexer : Lexer) : Step := do
  match lexer.key? with
  | some key =>
    let lexer :=
      { lexer with
        keys := lexer.keys.filter (·.1 ≠ lexer.flow)
        tokens := lexer.tokens.insertIdxIfInBounds key.number .key }
    let lexer :=
      if lexer.flow = 0 then lexer.openBlock key.column key.number .blockMappingStart else lexer
    return lexer.mark 1 .value false
  | none =>
    let lexer ← (← lexer.enterBlock .blockMappingStart).dropKey
    return lexer.mark 1 .value (lexer.flow = 0)

/-- The name of an anchor or of what an alias stands for. -/
def name (lexer : Lexer) (token : String → Token) : Step := do
  let lexer ← lexer.saveKey
  let (name, behind) ← Token.scanName lexer.cursor
  return lexer.content (token name) behind false

def tag (lexer : Lexer) : Step := do
  let lexer ← lexer.saveKey
  let (token, behind) ← Token.scanTag lexer.cursor
  return lexer.content token behind false

def directive (lexer : Lexer) : Step := do
  let lexer ← lexer.closeAll
  let (token, behind) ← Token.scanDirective lexer.cursor
  return lexer.content token behind false

def blockScalar (lexer : Lexer) (folded : Bool) : Step := do
  let lexer ← lexer.dropKey
  let (text, behind) ← Scalar.block folded lexer.indent lexer.cursor
  return lexer.content (.scalar (Text.codePoints text) false) behind true

def quotedScalar (lexer : Lexer) : Step := do
  let lexer ← lexer.saveKey
  let (text, behind) ← Scalar.quoted lexer.cursor
  return lexer.content (.scalar text false) behind false

def plainScalar (lexer : Lexer) : Step := do
  let lexer ← lexer.saveKey
  let (text, allowKey, behind) := Scalar.plain (lexer.flow ≠ 0) (lexer.indent + 1) lexer.cursor
  return lexer.content (.scalar (Text.codePoints text) true) behind allowKey

/-- Marks that no plain scalar starts with. -/
def isIndicator (c : Char) : Bool :=
  "-?:,[]\x7b\x7d#&*!|>'\"%@\x60".toList.contains c

/-- Whether a plain scalar starts with a character, given the next one. -/
def startsPlain (inFlow : Bool) (c next : Char) : Bool :=
  !(isGap c || isIndicator c) || (!isGap next && (c = '-' || (!inFlow && (c = '?' || c = ':'))))

/-- Reads a token that starts with a given character. -/
def next (lexer : Lexer) (c : Char) : Step :=
  let cursor := lexer.cursor
  let inFlow := lexer.flow ≠ 0
  let gapFollows := isGap (cursor.peek 1)
  if cursor.column = 0 && c = '%' then lexer.directive
  else if cursor.column = 0 && cursor.atSeparator then do
    let lexer ← lexer.closeAll
    return lexer.mark 3 (if c = '-' then .documentStart else .documentEnd) false
  else if c = '[' then lexer.openFlow .flowSequenceStart
  else if c = '\x7b' then lexer.openFlow .flowMappingStart
  else if c = ']' then lexer.closeFlow .flowSequenceEnd
  else if c = '\x7d' then lexer.closeFlow .flowMappingEnd
  else if c = ',' then do
    return (← lexer.dropKey).mark 1 .flowEntry true
  else if c = '-' && gapFollows then lexer.blockEntry
  else if c = '?' && (inFlow || gapFollows) then lexer.explicitKey
  else if c = ':' && (inFlow || gapFollows) then lexer.value
  else if c = '*' then lexer.name .alias
  else if c = '&' then lexer.name .anchor
  else if c = '!' then lexer.tag
  else if (c = '|' || c = '>') && !inFlow then lexer.blockScalar (c = '>')
  else if c = '\'' || c = '"' then lexer.quotedScalar
  else if startsPlain inFlow c (cursor.peek 1) then lexer.plainScalar
  else .error .malformed

/-- Reads on to the next token: whether there is one, or the text ends. -/
def turn (lexer : Lexer) : Except Fault (Bool × Lexer) := do
  let lexer ← (lexer.skipIgnored (lexer.cursor.rest.length + 1)).dropStale
  let lexer := lexer.unwind lexer.cursor.column
  match lexer.cursor.rest with
  | [] => return (false, (← lexer.closeAll).push .streamEnd)
  | c :: _ => return (true, ← lexer.next c)

/-- The tokens in front of a place where the text cannot be read on. Those behind the start of a key that has
not been recognised yet are not known either: they are read along with it. -/
def broken (lexer : Lexer) (fault : Fault) : List Token :=
  let open_ := lexer.keys.filter fun (_, key) => !lexer.isStale key
  let known := open_.foldl (fun number (_, key) => min number key.number) lexer.tokens.size
  lexer.tokens.toList.take known ++ [.broken fault]

/-- What is read in the end, given what a turn found and how to go on behind a token. -/
def resume (goOn : Lexer → List Token) (lexer : Lexer) : Except Fault (Bool × Lexer) → List Token
  | .error fault => lexer.broken fault
  | .ok (true, behind) => goOn behind
  | .ok (false, behind) => behind.tokens.toList

/-- Reads tokens to the end of the text, or to a place where it cannot be read on. -/
def run (fuel : Nat) (lexer : Lexer) : List Token :=
  match fuel with
  | 0 => lexer.broken .malformed
  | fuel + 1 => lexer.resume (run fuel) lexer.turn

end Lexer

namespace Token

/-- A character that a text may hold. -/
def isAllowed (c : Char) : Bool :=
  let n := c.toNat
  n = 9 || n = 10 || n = 13 || (32 ≤ n && n ≤ 126) || n = 0x85 || (0xA0 ≤ n && n ≤ 0xD7FF) ||
    (0xE000 ≤ n && n ≤ 0xFFFD) || 0x10000 ≤ n

/-- The tokens of a text. A byte order mark in front of it is no part of it. -/
def scan (text : List Char) : List Token :=
  if !text.all isAllowed then [.broken .malformed]
  else
    let start : Cursor := ⟨text, 0, 0, 0⟩
    Lexer.run (text.length + 1) { cursor := if start.peek = '\uFEFF' then start.step else start }

end Token
end Flowchart.Yaml
