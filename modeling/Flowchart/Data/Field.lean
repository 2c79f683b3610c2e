import Flowchart.Data
import Flowchart.Number.Shortest
import Flowchart.Text.Quoted

/-!
Fields of plain data: how a value is taken as text, as a number or as one of several words, and what is
wrong if it cannot be. Numbers may also be written as text.
-/
namespace Flowchart.Data

/-- What is wrong with a value or a key. -/
inductive Fault where
  | notMapping
  | invalidKey
  | unknownKey
  | notOneOf
  | notText
  | notUnicode
  | notNumber
  | noNumeral
  | notInteger
  | noIntegerNumeral
  | integerTooLong
  | hasFraction
  | notFinite
  | notAbove
  | below
  | above
  deriving DecidableEq, Repr

namespace Fault

/-- The short name of a fault in reports. -/
def name : Fault → String
  | notMapping => "model_type"
  | invalidKey => "invalid_key"
  | unknownKey => "extra_forbidden"
  | notOneOf => "literal_error"
  | notText => "string_type"
  | notUnicode => "string_unicode"
  | notNumber => "float_type"
  | noNumeral => "float_parsing"
  | notInteger => "int_type"
  | noIntegerNumeral => "int_parsing"
  | integerTooLong => "int_parsing_size"
  | hasFraction => "int_from_float"
  | notFinite => "finite_number"
  | notAbove => "greater_than"
  | below => "greater_than_equal"
  | above => "less_than_equal"

end Fault

/-- A fault and the key that it was found at; the empty key stands for the whole. -/
structure Problem where
  key : String
  fault : Fault
  deriving DecidableEq, Repr

/-- Problems with their keys, one in each line. -/
def describeProblems (problems : List Problem) : String :=
  "\n".intercalate (problems.map fun problem => s!"{problem.key}: {problem.fault.name}")

def decodeUtf8? (bytes : List UInt8) : Option String :=
  String.fromUTF8? (ByteArray.mk bytes.toArray)

/-- Text; surrogates in it are kept as what is shown for them. -/
def asText : Data → Except Fault String
  | .text value => .ok value
  | .torn value => .ok (Text.shown value)
  | .bytes value =>
    match decodeUtf8? value with
    | some decoded => .ok decoded
    | none => .error .notUnicode
  | _ => .error .notText

/-- Text, and whether it can be encoded. -/
def asEncodable (data : Data) : Except Fault (String × Bool) := do
  let isTorn := data matches .torn _
  return (← asText data, !isTorn)

def asWord {α : Type} (read? : String → Option α) : Data → Except Fault α
  | .text value =>
    match read? value with
    | some word => .ok word
    | none => .error .notOneOf
  | .torn _ => .error .notUnicode
  | _ => .error .notOneOf

/-- The number that a numeral stands for. -/
def floatOfText (text : String) : Except Fault Float :=
  match Number.readFloat? (Text.trimNumeral text.toList) with
  | some value => .ok value
  | none =>
    match (Number.dropUnderscores? text.toList).bind Number.readFloat? with
    | some value => .ok value
    | none => .error .noNumeral

/-- A number, or text that stands for one. Integers past the largest double are no numbers. -/
def asFloat : Data → Except Fault Float
  | .float value => .ok value
  | .int value =>
    let number := Number.ofDecimal (value < 0) value.natAbs 0
    if number.isFinite then .ok number else .error .notNumber
  | .bool value => .ok (if value then 1.0 else 0.0)
  | .text value => floatOfText value
  | .torn _ => .error .notUnicode
  | .bytes value =>
    match decodeUtf8? value with
    | some decoded => floatOfText decoded
    | none => .error .noNumeral
  | _ => .error .notNumber

/-- Digits without zeros in front of them, an optional minus sign before them. -/
def plainInteger? (cs : List Char) : Option Int :=
  match Number.splitSign cs with
  | (_, ['0']) => if cs.head? = some '+' then none else some 0
  | (negative, digits) =>
    if digits.isEmpty || !digits.all Char.isDigit || digits.head? = some '0' || cs.head? = some '+' then
      none
    else some (if negative then -(Number.digitsValue digits : Int) else Number.digitsValue digits)

/-- A numeral without the zeros in front of its first other digit. -/
def dropZeros? : List Char → Option (List Char)
  | '0' :: rest =>
    match rest.dropWhile fun c => c = '0' || c = '_' with
    | [] => some [((rest.getLast?).getD '0')]
    | c :: behind =>
      if c = '.' then
        some (((rest.take (rest.length - behind.length - 1)).getLast?.getD '0') :: c :: behind)
      else if c.isDigit then some (c :: behind)
      else none
  | c :: rest => if c.isDigit || c = '-' then some (c :: rest) else none
  | [] => none

/-- A numeral without a fraction of zeros. -/
def dropZeroFraction (cs : List Char) : List Char :=
  match cs.dropWhile (· ≠ '.') with
  | '.' :: fraction =>
    if fraction.isEmpty || !fraction.all (· = '0') then cs else cs.takeWhile (· ≠ '.')
  | _ => cs

/-- The integer that a numeral stands for: spaces around it, a plus sign, zeros in front, a fraction of
zeros and single underscores between digits are allowed. -/
def integerOfText (text : String) : Except Fault Int :=
  if 4300 < (Number.spanDigits (Number.splitSign text.toList).2).1.length then .error .integerTooLong
  else match plainInteger? text.toList with
    | some value => .ok value
    | none =>
      let stripped := Text.trimNumeral text.toList
      let unsigned? :=
        match stripped with
        | '+' :: rest => if rest.head? = some '-' || rest.head? = some '+' then none else some rest
        | rest => some rest
      let cleaned? := ((unsigned?.bind dropZeros?).map dropZeroFraction).bind Number.dropUnderscores?
      match cleaned?.bind plainInteger? with
      | some value => .ok value
      | none => .error .noIntegerNumeral

/-- The integer that a double stands for exactly. -/
def integerOfFloat (value : Float) : Except Fault Int :=
  if !value.isFinite then .error .notFinite
  else if value.floor != value then .error .hasFraction
  else if 9223372036854775808.0 ≤ value.abs then .error .integerTooLong
  else .ok value.toInt64.toInt

/-- An integer, or a number or text that stands for one. -/
def asInteger : Data → Except Fault Int
  | .int value => .ok value
  | .bool value => .ok (if value then 1 else 0)
  | .float value => integerOfFloat value
  | .text value => integerOfText value
  | .torn _ => .error .notUnicode
  | .bytes value =>
    match decodeUtf8? value with
    | some decoded => integerOfText decoded
    | none => .error .noIntegerNumeral
  | _ => .error .notInteger

def asPositive (data : Data) : Except Fault Float := do
  let value ← asFloat data
  if 0.0 < value then return value else throw .notAbove

def asNonNegative (data : Data) : Except Fault Float := do
  let value ← asFloat data
  if 0.0 ≤ value then return value else throw .below

/-- A number from zero to a limit. -/
def asUpTo (limit : Float) (data : Data) : Except Fault Float := do
  let value ← asFloat data
  if !(value ≤ limit) then throw .above
  else if !(0.0 ≤ value) then throw .below
  else return value

def asCount (data : Data) : Except Fault Nat := do
  let value ← asInteger data
  if value < 0 then throw .below else return value.toNat

/-- How a report shows a byte between quotes. -/
def shownByte (quote : Char) (byte : UInt8) : List Char :=
  let c := Char.ofNat byte.toNat
  if c = quote || c = '\\' then ['\\', c]
  else if c = '\t' then ['\\', 't']
  else if c = '\n' then ['\\', 'n']
  else if c = '\r' then ['\\', 'r']
  else if 32 ≤ byte.toNat && byte.toNat < 127 then [c]
  else '\\' :: 'x' :: Text.hexDigits 2 byte.toNat

def shownBytes (bytes : List UInt8) : String :=
  let quote := Text.quoteFor (bytes.map fun byte => Char.ofNat byte.toNat)
  String.ofList ('b' :: quote :: bytes.flatMap (shownByte quote) ++ [quote])

/-- The key under which reports file a problem of a key. -/
def shownKey : Data → String
  | .null => "None"
  | .bool value => if value then "1" else "0"
  | .int value => toString value
  | .float value => Number.shortestText value
  | .text value => value
  | .bytes value => shownBytes value
  | .other shown => shown
  | _ => ""

/-- A reader of the entries of a mapping, which collects the problems that it meets and the keys that it
has taken. -/
structure Reader where
  entries : List (Data × Data)
  taken : List String := []
  problems : List Problem := []

namespace Reader

/-- Reads an optional entry, which may stand under either of two keys; the first is preferred. -/
def field {α : Type} (read : Data → Except Fault α) (key name : String) (default : α)
    (reader : Reader) : α × Reader :=
  let found :=
    match Data.get? key reader.entries with
    | some value => some (key, value)
    | none => (Data.get? name reader.entries).map fun value => (name, value)
  match found with
  | none => (default, reader)
  | some (key, value) =>
    let reader := { reader with taken := key :: reader.taken }
    match read value with
    | .ok value => (value, reader)
    | .error fault => (default, { reader with problems := reader.problems ++ [⟨key, fault⟩] })

/-- The problems met, and one for each entry that was not taken. A key that cannot be encoded is the only problem
that is told. -/
def finish (reader : Reader) : List Problem :=
  if reader.entries.any fun (key, _) => key matches .torn _ then [⟨"", .notUnicode⟩]
  else
    reader.problems ++ reader.entries.filterMap fun (key, _) =>
      match key with
      | .text name => if reader.taken.contains name then none else some ⟨name, .unknownKey⟩
      | key => some ⟨shownKey key, .invalidKey⟩

end Reader
end Flowchart.Data
