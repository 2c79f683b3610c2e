import Flowchart.Yaml.Token.Lexer

/-!
The tree that the tokens of a YAML text describe. Collections nest by the tokens that open and close
them; what may be left out stands for an empty scalar; aliases are replaced by what they stand for.
-/
namespace Flowchart.Yaml

/-- What kind of value a node announces: nothing, or the full name of a kind. A scalar that announces
nothing is text, unless it is plain. -/
abbrev Tag := Option String

inductive Node where
  | scalar (tag : Tag) (plain : Bool) (text : List Text.CodePoint)
  | sequence (tag : Tag) (items : List Node)
  | mapping (tag : Tag) (entries : List (Node × Node))
  /-- An alias of a collection that it stands in. -/
  | enclosing (isMapping : Bool)
  deriving Inhabited

namespace Node

def empty : Node :=
  .scalar none true []

/-- What an anchor stands for while its collection is still open. -/
def enclosing? : Token → Option Node
  | .flowSequenceStart | .blockSequenceStart | .blockEntry => some (.enclosing false)
  | .flowMappingStart | .blockMappingStart => some (.enclosing true)
  | _ => none

/-- What is left to read, and the names that are defined. -/
structure Source where
  tokens : List Token
  anchors : List (String × Node) := []
  handles : List (String × String) := []

/-- A reader of the tokens at the head. -/
abbrev Reader := StateT Source (Except Fault)

/-- Where a node stands: within brackets, in a block, or in a block where the hyphens of a sequence may
stand in the column of the keys around them. -/
inductive Place where
  | flow | block | entry
  deriving DecidableEq, Repr

/-- The next token; the end of the text repeats. It is looked at as soon as it matters, and not before. -/
def peek : Reader Token := do
  match (← get).tokens.headD .streamEnd with
  | .broken fault => throw fault
  | token => return token

def drop : Reader Unit :=
  modify fun source => { source with tokens := source.tokens.tail }

/-- Steps over a token if it comes next. -/
def accept (token : Token) : Reader Bool := do
  if (← peek) = token then
    drop
    return true
  else return false

def expect (token : Token) : Reader Unit := do
  if !(← accept token) then throw .malformed

/-- The full name behind a handle. A lone exclamation mark announces that a scalar counts as plain. -/
def resolveTag (handle : Option String) (suffix : String) : Reader String := do
  match handle with
  | none => return suffix
  | some handle =>
    match (← get).handles.lookup handle with
    | some meaning => return meaning ++ suffix
    | none => throw .malformed

/-- The anchor and the tag in front of a node, in either order. -/
def properties : Reader (Option String × Option String) := do
  let anchor? : Reader (Option String) := do
    match ← peek with
    | .anchor name =>
      drop
      return some name
    | _ => return none
  let tag? : Reader (Option (Option String × String)) := do
    match ← peek with
    | .tag handle suffix =>
      drop
      return some (handle, suffix)
    | _ => return none
  let first ← anchor?
  let tag ← tag?
  let anchor ← if first.isSome then pure first else if tag.isSome then anchor? else pure none
  match tag with
  | none => return (anchor, none)
  | some (handle, suffix) => return (anchor, some (← resolveTag handle suffix))

/-- Lets an anchor stand for a node. -/
def define (anchor : Option String) (node : Node) : Reader Unit :=
  match anchor with
  | none => return
  | some name => modify fun source => { source with anchors := (name, node) :: source.anchors }

/-- The mark that separates what is left out from what is written. -/
def isAbsent (place : Place) (closing : Token) (token : Token) : Bool :=
  token = closing || token = .value ||
    (if place = .flow then token = .flowEntry else token = .key)

mutual

def read (fuel : Nat) (place : Place) : Reader Node :=
  match fuel with
  | 0 => throw .malformed
  | fuel + 1 => do
    if let .alias name ← peek then
      drop
      match (← get).anchors.lookup name with
      | some node => return node
      | none => throw .malformed
    let (anchor, name) ← properties
    let token ← peek
    if let some name := anchor then
      if ((← get).anchors.lookup name).isSome then throw .malformed
    if let some node := enclosing? token then define anchor node
    let isPlain := name = some "!"
    let tag := if isPlain then none else name
    let node ← readContent fuel place token tag isPlain (anchor.isSome || name.isSome)
    define anchor node
    return node

/-- A node behind its anchor and tag. -/
def readContent (fuel : Nat) (place : Place) (token : Token) (tag : Tag)
    (isPlain hasProperties : Bool) : Reader Node :=
  match fuel with
  | 0 => throw .malformed
  | fuel + 1 => do
    match token with
    | .scalar text plain =>
      drop
      return .scalar tag (isPlain || plain) text
    | .flowSequenceStart =>
      drop
      return .sequence tag (← readFlowItems fuel true)
    | .flowMappingStart =>
      drop
      return .mapping tag (← readFlowEntries fuel true)
    | .blockSequenceStart =>
      if place = .flow then throw .malformed
      drop
      return .sequence tag (← readBlockItems fuel .blockEnd)
    | .blockMappingStart =>
      if place = .flow then throw .malformed
      drop
      return .mapping tag (← readBlockEntries fuel)
    | .blockEntry =>
      if place = .entry then return .sequence tag (← readBlockItems fuel .key)
      else if hasProperties then return .scalar tag true []
      else throw .malformed
    | _ => if hasProperties then return .scalar tag true [] else throw .malformed

/-- A node, or nothing if one of the marks behind it comes at once. -/
def readOptional (fuel : Nat) (place : Place) (closing : Token) : Reader Node :=
  match fuel with
  | 0 => throw .malformed
  | fuel + 1 => do
    if isAbsent place closing (← peek) then return empty else read fuel place

/-- The value of an entry, with the colon before it. -/
def readValue (fuel : Nat) (place : Place) (closing : Token) : Reader Node :=
  match fuel with
  | 0 => throw .malformed
  | fuel + 1 => do
    if ← accept .value then
      if place = .flow && (← peek) = .value then throw .malformed
      readOptional fuel place closing
    else return empty

/-- The items of a block sequence. One whose hyphens stand in the column of keys has no mark at its
end. -/
def readBlockItems (fuel : Nat) (closing : Token) : Reader (List Node) :=
  match fuel with
  | 0 => throw .malformed
  | fuel + 1 => do
    if ← accept .blockEntry then
      let token ← peek
      let absent := token = .blockEntry || token = .blockEnd ||
        (closing = .key && (token = .key || token = .value))
      let item ← if absent then pure empty else read fuel .block
      return item :: (← readBlockItems fuel closing)
    else
      if closing = .blockEnd then expect .blockEnd
      return []

def readBlockEntries (fuel : Nat) : Reader (List (Node × Node)) :=
  match fuel with
  | 0 => throw .malformed
  | fuel + 1 => do
    if ← accept .key then
      let key ← readOptional fuel .entry .blockEnd
      let value ← readValue fuel .entry .blockEnd
      return (key, value) :: (← readBlockEntries fuel)
    else
      expect .blockEnd
      return []

/-- The items of a sequence within brackets. An item may be a single entry of a mapping. -/
def readFlowItems (fuel : Nat) (first : Bool) : Reader (List Node) :=
  match fuel with
  | 0 => throw .malformed
  | fuel + 1 => do
    if ← accept .flowSequenceEnd then return []
    if !first then expect .flowEntry
    if ← accept .flowSequenceEnd then return []
    let item ←
      if ← accept .key then
        let key ← readOptional fuel .flow .flowSequenceEnd
        let value ← readValue fuel .flow .flowSequenceEnd
        pure (.mapping none [(key, value)])
      else read fuel .flow
    return item :: (← readFlowItems fuel false)

/-- The entries of a mapping within braces. A lone node is a key. -/
def readFlowEntries (fuel : Nat) (first : Bool) : Reader (List (Node × Node)) :=
  match fuel with
  | 0 => throw .malformed
  | fuel + 1 => do
    if ← accept .flowMappingEnd then return []
    if !first then expect .flowEntry
    if ← accept .flowMappingEnd then return []
    let entry ←
      if ← accept .key then
        let key ← readOptional fuel .flow .flowMappingEnd
        let value ← readValue fuel .flow .flowMappingEnd
        pure (key, value)
      else
        let key ← read fuel .flow
        pure (key, empty)
    return entry :: (← readFlowEntries fuel false)

end

def standardHandles : List (String × String) :=
  [("!", "!"), ("!!", "tag:yaml.org,2002:")]

/-- The directives in front of a document: the handles they define. -/
def directives (tokens : List Token) (versioned : Bool) (handles : List (String × String)) :
    Except Fault (List (String × String) × List Token) :=
  match tokens with
  | .directive (.version major _) :: rest =>
    if versioned || major ≠ 1 then .error .malformed else directives rest true handles
  | .directive (.tag handle meaning) :: rest =>
    if (handles.lookup handle).isSome then .error .malformed
    else directives rest versioned ((handle, meaning) :: handles)
  | .directive .unknown :: rest => directives rest versioned handles
  | rest => .ok (handles ++ standardHandles, rest)

/-- A token that ends a document without content. -/
def endsDocument : Token → Bool
  | .directive _ | .documentStart | .documentEnd | .streamEnd => true
  | _ => false

def readDocument (isExplicit : Bool) : Reader Node := do
  let source ← get
  let node ←
    if isExplicit && endsDocument (← peek) then pure empty
    else read (4 * source.tokens.length + 8) .block
  modify fun source => { source with tokens := source.tokens.dropWhile (· = .documentEnd) }
  expect .streamEnd
  return node

/-- The tree of a text with at most one document; none if it is empty. -/
def ofTokens : List Token → Except Fault (Option Node)
  | .streamEnd :: _ => .ok none
  | tokens@(.directive _ :: _) | tokens@(.documentStart :: _) => do
    let (handles, rest) ← directives tokens false []
    match rest with
    | .documentStart :: tokens => return some (← (readDocument true).run' { tokens, handles })
    | .broken fault :: _ => throw fault
    | _ => throw .malformed
  | tokens => do
    return some (← (readDocument false).run' { tokens, handles := standardHandles })

end Node
end Flowchart.Yaml
