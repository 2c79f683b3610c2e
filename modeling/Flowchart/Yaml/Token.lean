import Flowchart.Text.CodePoint
import Flowchart.Yaml.Cursor
import Flowchart.Yaml.Fault

/-!
Tokens of YAML: scalars and the marks that structure them. Indentation has turned into tokens that
start and end block collections.
-/
namespace Flowchart.Yaml

/-- What a directive says. -/
inductive Directive where
  | version (major minor : Nat)
  | tag (handle meaning : String)
  | unknown
  deriving DecidableEq, Repr

inductive Token where
  | directive (directive : Directive)
  | documentStart
  | documentEnd
  | blockSequenceStart
  | blockMappingStart
  | blockEnd
  | flowSequenceStart
  | flowSequenceEnd
  | flowMappingStart
  | flowMappingEnd
  | blockEntry
  | flowEntry
  | key
  | value
  | alias (name : String)
  | anchor (name : String)
  | tag (handle : Option String) (suffix : String)
  | scalar (text : List Text.CodePoint) (plain : Bool)
  | streamEnd
  /-- The place where the text cannot be read on. -/
  | broken (fault : Fault)
  deriving DecidableEq, Repr, Inhabited

namespace Token

/-- A token that has characters of its own, and what follows it. -/
abbrev Scanned := Except Fault (Token × Cursor)

/-- The name behind the mark of an anchor or an alias. -/
def scanName (cursor : Cursor) : Except Fault (String × Cursor) :=
  let (name, behind) := cursor.step.span isNameChar
  if name.isEmpty then .error .malformed
  else
    let c := behind.peek
    if isGap c || ['?', ':', ',', ']', '\x7d', '%', '@', '\x60'].contains c then
      .ok (String.ofList name, behind)
    else .error .malformed

/-- A character of tags and of what they are short for. -/
def isUriChar (c : Char) : Bool :=
  c.isAlphanum || "-;/?:@&=+$,_.!~*'()[]%".toList.contains c

/-- Escaped bytes in a tag: percent signs, each with two hexadecimal digits. -/
def scanUriBytes : List Char → Except Fault (List UInt8 × Nat)
  | '%' :: a :: b :: rest =>
    if isHexDigit a && isHexDigit b then do
      let (bytes, count) ← scanUriBytes rest
      return (UInt8.ofNat (hexValue [a, b]) :: bytes, count + 3)
    else .error .malformed
  | '%' :: _ => .error .malformed
  | _ => .ok ([], 0)

/-- A tag, or what a handle is short for. -/
def scanUri (fuel : Nat) (cursor : Cursor) : Except Fault (List Char × Cursor) :=
  match fuel with
  | 0 => .ok ([], cursor)
  | fuel + 1 =>
    let c := cursor.peek
    if c = '%' then do
      let (bytes, count) ← scanUriBytes cursor.rest
      match String.fromUTF8? (ByteArray.mk bytes.toArray) with
      | none => .error .malformed
      | some text =>
        let (more, behind) ← scanUri fuel (cursor.forward count)
        return (text.toList ++ more, behind)
    else if isUriChar c then do
      let (more, behind) ← scanUri fuel cursor.step
      return (c :: more, behind)
    else .ok ([], cursor)

def scanSuffix (cursor : Cursor) : Except Fault (String × Cursor) := do
  let (suffix, behind) ← scanUri (cursor.rest.length + 1) cursor
  if isUriChar cursor.peek then return (String.ofList suffix, behind) else throw .malformed

/-- The handle of a tag: exclamation marks around a name, or a single one before a space. -/
def scanHandle (cursor : Cursor) : Except Fault (String × Cursor) :=
  if cursor.peek ≠ '!' then .error .malformed
  else if cursor.peek 1 = ' ' then .ok ("!", cursor.step)
  else
    let (name, behind) := cursor.step.span isNameChar
    if behind.peek = '!' then .ok (String.ofList ('!' :: name ++ ['!']), behind.step)
    else .error .malformed

def scanTag (cursor : Cursor) : Scanned := do
  let next := cursor.peek 1
  let (handle, suffix, behind) ←
    if next = '<' then do
      let (suffix, behind) ← scanSuffix (cursor.forward 2)
      if behind.peek = '>' then pure (none, suffix, behind.step) else throw .malformed
    else if isGap next then pure (none, "!", cursor.step)
    else if (cursor.step.rest.takeWhile (!isSpaceOrEnd ·)).contains '!' then do
      let (handle, behind) ← scanHandle cursor
      let (suffix, behind) ← scanSuffix behind
      pure (some handle, suffix, behind)
    else do
      let (suffix, behind) ← scanSuffix cursor.step
      pure (some "!", suffix, behind)
  if isSpaceOrEnd behind.peek then return (.tag handle suffix, behind) else throw .malformed

/-- The rest of a line that may hold nothing but a comment. -/
def scanIgnoredLine (cursor : Cursor) : Except Fault Cursor :=
  let behind := (cursor.skip (· = ' ')).skipComment
  if isLineEnd behind.peek then .ok behind.lineBreak.2 else .error .malformed

/-- A number of digits, at least one. -/
def scanNumber (cursor : Cursor) : Except Fault (Nat × Cursor) :=
  let (digits, behind) := cursor.span Char.isDigit
  if digits.isEmpty then .error .malformed
  else .ok (digits.foldl (fun n c => 10 * n + (c.toNat - '0'.toNat)) 0, behind)

/-- What the directive of a given name says. -/
def scanDirectiveValue (name : String) (cursor : Cursor) : Except Fault (Directive × Cursor) := do
  if name = "YAML" then
    let (major, behind) ← scanNumber (cursor.skip (· = ' '))
    if behind.peek ≠ '.' then throw .malformed
    let (minor, behind) ← scanNumber behind.step
    if isSpaceOrEnd behind.peek then return (.version major minor, behind) else throw .malformed
  else if name = "TAG" then
    let (handle, behind) ← scanHandle (cursor.skip (· = ' '))
    if behind.peek ≠ ' ' then throw .malformed
    let (meaning, behind) ← scanSuffix (behind.skip (· = ' '))
    if isSpaceOrEnd behind.peek then return (.tag handle meaning, behind) else throw .malformed
  else return (.unknown, cursor.skip (!isLineEnd ·))

/-- A directive, to the end of its line. -/
def scanDirective (cursor : Cursor) : Scanned := do
  let (name, behind) := cursor.step.span isNameChar
  if name.isEmpty || !isSpaceOrEnd behind.peek then throw .malformed
  let (meaning, behind) ← scanDirectiveValue (String.ofList name) behind
  return (.directive meaning, ← scanIgnoredLine behind)

end Token
end Flowchart.Yaml
