import Flowchart.Data
import Flowchart.Number.Decimal
import Flowchart.Number.FixedPoint
import Flowchart.Text.Base64
import Flowchart.Text.Blank
import Flowchart.Text.Digit
import Flowchart.Yaml.Form
import Flowchart.Yaml.Node

/-!
The data that a YAML text stands for. The kind of a node is announced by its tag or else by its form;
entries may be merged in from other mappings, and of equal keys the last one counts.
-/
namespace Flowchart.Yaml

/-- The kind that a tag names. -/
inductive Kind where
  | form (form : Form)
  | binary
  | pairs
  | set
  | list
  | mapping
  deriving DecidableEq, Repr

namespace Kind

/-- The kinds of the standard tags, under their names behind the common beginning. -/
def standard : List (String × Kind) :=
  [("null", .form .null), ("bool", .form .bool), ("int", .form .int), ("float", .form .float),
    ("timestamp", .form .date), ("merge", .form .merge), ("value", .form .default),
    ("str", .form .text), ("binary", .binary), ("omap", .pairs), ("pairs", .pairs), ("set", .set),
    ("seq", .list), ("map", .mapping)]

/-- The kind of a tag's full name. -/
def ofTag? (tag : String) : Option Kind :=
  standard.findSome? fun (name, kind) =>
    if tag = "tag:yaml.org,2002:" ++ name then some kind else none

end Kind

namespace Node

/-- The kind of a node; none if its tag is unknown. -/
def kind? : Node → Option Kind
  | .scalar (some tag) _ _ | .sequence (some tag) _ | .mapping (some tag) _ => Kind.ofTag? tag
  | .scalar none plain text => some (.form (if plain then Form.ofPlain (Text.shown text) else .text))
  | .sequence none _ => some .list
  | .mapping none _ => some .mapping
  | .enclosing isMapping => some (if isMapping then .mapping else .list)

/-- The text of a scalar. A mapping may have an entry that stands for it as a scalar. -/
def text (fuel : Nat) (node : Node) : Except Fault (List Text.CodePoint) :=
  match fuel with
  | 0 => .error .malformed
  | fuel + 1 =>
    match node with
    | .scalar _ _ text => .ok text
    | .mapping _ entries =>
      match entries.find? fun (key, _) => key.kind? = some (.form .default) with
      | some (_, value) => text fuel value
      | none => .error .malformed
    | _ => .error .malformed

end Node

namespace Value

/-- The letter behind a zero that announces the base of a numeral. -/
def baseMark? (base : Nat) : Option Char :=
  if base = 2 then some 'b' else if base = 8 then some 'o' else if base = 16 then some 'x' else none

/-- The digits of a numeral behind its sign, without the mark of the base. -/
def dropBaseMark (base : Nat) : List Char → List Char
  | '0' :: c :: rest => if baseMark? base = some c.toLower then rest else '0' :: c :: rest
  | digits => digits

/-- A whole numeral without underscores in a base up to sixteen, in the digits of any script, with blanks around
it, a sign and a mark of the base. -/
def readInteger (base : Nat) (text : List Char) : Except Fault Int :=
  let (negative, unsigned) := Number.splitSign (Text.plainDigits (Text.trimNumeral text))
  let numeral := dropBaseMark base unsigned
  let digits := numeral.takeWhile fun c => isHexDigit c && hexValue [c] < base
  if base = 10 && 4300 < digits.length then .error (.longInteger digits.length)
  else if digits.isEmpty || digits.length < numeral.length then .error (.badInteger base (String.ofList text))
  else
    let value : Int := digits.foldl (fun n c => base * n + hexValue [c]) (0 : Nat)
    .ok (if negative then -value else value)

/-- An integer: binary, octal, decimal, hexadecimal, or sixtieths between colons. -/
def integer (text : String) : Except Fault Int := do
  let cs := text.toList.filter (· ≠ '_')
  if cs.isEmpty then throw .emptyNumeral
  let sign : Int := if cs.head? = some '-' then -1 else 1
  let value ←
    match Form.unsigned cs with
    | [] => throw .emptyNumeral
    | ['0'] => pure 0
    | '0' :: 'b' :: digits => readInteger 2 digits
    | '0' :: 'x' :: digits => readInteger 16 digits
    | '0' :: digits => readInteger 8 ('0' :: digits)
    | digits =>
      (Form.betweenColons digits).foldlM
        (fun total piece => do return 60 * total + (← readInteger 10 piece)) 0
  return sign * value

def readFloat (text : List Char) : Except Fault Float :=
  match Number.readFloat? (Text.plainDigits (Text.trimNumeral text)) with
  | some value => .ok value
  | none => .error (.badFloat (String.ofList text))

/-- The sum of numbers times the powers of sixty, from the first power on. Powers past the largest double are
none. -/
def sumOfSixtieths (numbers : List Float) : Except Fault Float :=
  numbers.zipIdx.foldlM
    (fun total (number, place) =>
      let power := Number.ofDecimal false (Nat.pow 60 place) 0
      if power.isFinite then .ok (total + number * power) else .error .hugePower)
    0.0

/-- A number with a point, infinite, or none at all; sixtieths may stand between colons. -/
def float (text : String) : Except Fault Float := do
  let cs := (text.toList.filter (· ≠ '_')).map Char.toLower
  if cs.isEmpty then throw .emptyNumeral
  let negative := cs.head? = some '-'
  let body := Form.unsigned cs
  let value ←
    if body = ".inf".toList then pure (1.0 / 0.0)
    else if body = ".nan".toList then pure (0.0 / 0.0)
    else if body.contains ':' then do
      let pieces ← (Form.betweenColons body).mapM readFloat
      sumOfSixtieths pieces.reverse
    else readFloat body
  return if negative then -value else value

def bool (text : String) : Except Fault Bool :=
  let word := String.ofList (text.toList.map Char.toLower)
  match Form.truths.lookup word with
  | some value => .ok value
  | none => .error (.badTruth word)

/-- A date or a moment that exists. A line feed may follow it. -/
def moment (text : String) : Except Fault Moment :=
  let cs := text.toList
  match Moment.ofChars? (if cs.getLast? = some '\n' then cs.dropLast else cs) with
  | none => .error .noDate
  | some moment =>
    match moment.flaw? with
    | some reason => .error (.badDate reason)
    | none => .ok moment

/-- The integer that a number is, if it is one. -/
def whole? : Data → Option Int
  | .bool value => some (if value then 1 else 0)
  | .int value => some value
  | .float value =>
    match Number.decode value with
    | .finite negative mantissa exponent =>
      let size := mantissa * Nat.pow 2 exponent.toNat
      let unit := Nat.pow 2 (-exponent).toNat
      if size % unit = 0 then
        some (if negative then -(size / unit : Nat) else (size / unit : Nat))
      else none
    | _ => none
  | _ => none

/-- Two keys name the same entry. Numbers of different kinds may be equal. -/
def sameKey : Data → Data → Bool
  | .null, .null => true
  | .text a, .text b => a == b
  | .torn a, .torn b => a == b
  | .bytes a, .bytes b => a == b
  | .other a, .other b => a == b
  | .float a, .float b => a == b
  | a, b =>
    match whole? a, whole? b with
    | some m, some n => m == n
    | _, _ => false

/-- Whether a value can be a key. -/
def isKey : Data → Bool
  | .list _ | .mapping _ | .collection => false
  | _ => true

/-- Sets an entry; a key that is there already keeps its place and its spelling. -/
def put (entries : List (Data × Data)) (key value : Data) : List (Data × Data) :=
  if entries.any fun (name, _) => sameKey name key then
    entries.map fun (name, old) => (name, if sameKey name key then value else old)
  else entries ++ [(key, value)]

/-- The entries of a mapping after those that it merges in. -/
def flatten (fuel : Nat) (entries : List (Node × Node)) : Except Fault (List (Node × Node)) :=
  match fuel with
  | 0 => .error .malformed
  | fuel + 1 => do
    let isMerge (entry : Node × Node) : Bool := entry.1.kind? = some (.form .merge)
    let ofMapping : Node → Except Fault (List (Node × Node))
      | .mapping _ entries => flatten fuel entries
      | .enclosing true => .ok []
      | _ => .error .malformed
    let merged ← (entries.filter isMerge).mapM fun (_, value) => do
      match value with
      | .sequence _ items => return (← items.mapM ofMapping).reverse.flatten
      | node => ofMapping node
    return merged.flatten ++ entries.filter (!isMerge ·)

/-- Text as data. -/
def ofText (text : List Text.CodePoint) : Data :=
  match Text.characters? text with
  | some cs => .text (String.ofList cs)
  | none => .torn text

def binary (text : String) : Except Fault Data :=
  if text.toList.any fun c => 128 ≤ c.toNat then .error .malformed
  else match Text.Base64.decode? text.toList with
    | some bytes => .ok (.bytes bytes)
    | none => .error .malformed

/-- The value of a node before anything is looked at that it holds: collections are empty then. -/
def outside (fuel : Nat) (node : Node) : Except Fault Data := do
  match node.kind? with
  | some .list | some .pairs => return .list []
  | some .mapping => return .mapping []
  | some .set => return .collection
  | some .binary => binary (Text.shown (← node.text fuel))
  | some (.form form) =>
    if form = .merge || form = .default then throw .malformed
    let text ← node.text fuel
    let shown := Text.shown text
    match form, node with
    | .null, _ => return .null
    | .bool, _ => return .bool (← bool shown)
    | .int, _ => return .int (← integer shown)
    | .float, _ => return .float (← float shown)
    | .date, .mapping _ _ => throw .dateInMapping
    | .date, _ => return .other (← moment shown).shown
    | _, _ => return ofText text
  | none => throw .malformed

/-- The entries of a mapping, and the nodes of its values. -/
def entriesOf (fuel : Nat) (node : Node) : Except Fault (List (Data × Data) × List Node) := do
  match node with
  | .mapping _ entries =>
    let entries ← flatten fuel entries
    let found ← entries.foldlM
      (fun found (key, value) => do
        let key ←
          if key.kind? = some (.form .default) then pure (ofText (← key.text fuel)) else outside fuel key
        if !isKey key then throw .malformed
        return put found key (← outside fuel value))
      []
    return (found, entries.map (·.2))
  | _ => throw .malformed

/-- A list of pairs holds mappings with a single entry. -/
def pair (fuel : Nat) (item : Node) : Except Fault (List Node) :=
  match item with
  | .mapping _ [(key, value)] => do
    discard (outside fuel key)
    discard (outside fuel value)
    return [key, value]
  | _ => .error .malformed

/-- The value of a node with what it holds, and the nodes of that. -/
def inside (fuel : Nat) (node : Node) : Except Fault (Data × List Node) := do
  if let .enclosing _ := node then return (.collection, [])
  match node.kind?, node with
  | some .list, .sequence _ items => return (.list (← items.mapM (outside fuel)), items)
  | some .list, _ => throw .malformed
  | some .mapping, _ =>
    let (entries, nodes) ← entriesOf fuel node
    return (.mapping entries, nodes)
  | some .set, _ => return (.collection, (← entriesOf fuel node).2)
  | some .pairs, .sequence _ items => return (.list [], (← items.mapM (pair fuel)).flatten)
  | some .pairs, _ => throw .malformed
  | _, _ => return (← outside fuel node, [])

/-- Looks into nodes, then into all that they hold, and so on. -/
def exhaust (fuel : Nat) (nodes : List Node) : Except Fault Unit :=
  match fuel with
  | 0 => .error .malformed
  | fuel + 1 =>
    if nodes.isEmpty then .ok ()
    else do
      let held ← nodes.mapM fun node => do return (← inside fuel node).2
      exhaust fuel held.flatten

/-- The value of a node. Of what it holds no more is kept than what stands right in it, but a fault may lie
deeper. -/
def ofNode (fuel : Nat) (node : Node) : Except Fault Data := do
  let (value, nodes) ← inside fuel node
  exhaust fuel nodes
  return value

end Value

/-- A way to read the data of a text. -/
abbrev Loader := String → Except Fault Data

/-- The data of a text with at most one document; an empty text has none. -/
def load : Loader := fun text => do
  let cs := text.toList
  match ← Node.ofTokens (Token.scan cs) with
  | none => return .null
  | some node => Value.ofNode (4 * cs.length + 16) node

end Flowchart.Yaml
