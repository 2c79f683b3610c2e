import Flowchart.Yaml.Moment

/-!
What a plain scalar announces by its form alone: a truth value, a number, a date, nothing, or text. The
forms exclude each other.
-/
namespace Flowchart.Yaml

/-- The kinds of values that have forms of their own. -/
inductive Form where
  | null | bool | int | float | date | merge | default | text
  deriving DecidableEq, Repr

namespace Form

def isDigitOrUnderscore (c : Char) : Bool :=
  c.isDigit || c = '_'

/-- A scalar without its sign, if it has one. -/
def unsigned : List Char → List Char
  | '-' :: rest => rest
  | '+' :: rest => rest
  | cs => cs

/-- A sixtieth: one digit, or two that make less than sixty. -/
def isSixtieth : List Char → Bool
  | [a] => a.isDigit
  | [a, b] => '0' ≤ a && a ≤ '5' && b.isDigit
  | _ => false

/-- The pieces of a text between colons. -/
def betweenColons : List Char → List (List Char)
  | [] => [[]]
  | c :: rest =>
    if c = ':' then [] :: betweenColons rest
    else match betweenColons rest with
      | [] => [[c]]
      | piece :: pieces => (c :: piece) :: pieces

/-- Sixtieths behind a whole number, at least one, each behind a colon. -/
def areSixtieths (pieces : List (List Char)) : Bool :=
  !pieces.isEmpty && pieces.all isSixtieth

/-- Digits that start a number, underscores among them. -/
def startsNumber (cs : List Char) : Bool :=
  cs.head?.any Char.isDigit && cs.all isDigitOrUnderscore

/-- An integer in base two, eight, ten, sixteen or sixty. -/
def isInt (cs : List Char) : Bool :=
  match unsigned cs with
  | ['0'] => true
  | '0' :: 'b' :: digits => !digits.isEmpty && digits.all fun c => c = '0' || c = '1' || c = '_'
  | '0' :: 'x' :: digits => !digits.isEmpty && digits.all fun c => isHexDigit c || c = '_'
  | '0' :: digits => digits.all fun c => ('0' ≤ c && c ≤ '7') || c = '_'
  | digits =>
    match betweenColons digits with
    | [whole] => startsNumber whole
    | whole :: pieces => startsNumber whole && areSixtieths pieces
    | [] => false

/-- Nothing, or an exponent with its sign. -/
def isExponent : List Char → Bool
  | [] => true
  | c :: sign :: digits =>
    (c = 'e' || c = 'E') && (sign = '-' || sign = '+') && !digits.isEmpty && digits.all Char.isDigit
  | _ => false

def infinities : List String := ["inf", "Inf", "INF"]

/-- Names of what is not a number behind a point. -/
def notNumbers : List String := ["nan", "NaN", "NAN"]

def isFloat (cs : List Char) : Bool :=
  let body := unsigned cs
  let whole := body.takeWhile (· ≠ '.')
  match body.dropWhile (· ≠ '.') with
  | '.' :: behind =>
    let rest := behind.dropWhile isDigitOrUnderscore
    match betweenColons whole with
    | [[]] =>
      infinities.contains (String.ofList behind) ||
        (body.length = cs.length &&
          (notNumbers.contains (String.ofList behind) ||
            (behind.head?.any Char.isDigit && isExponent rest)))
    | [_] => startsNumber whole && isExponent rest
    | first :: pieces => startsNumber first && areSixtieths pieces && rest.isEmpty
    | [] => false
  | _ => false

def nulls : List String := ["~", "null", "Null", "NULL", ""]

def truths : List (String × Bool) :=
  [("yes", true), ("no", false), ("true", true), ("false", false), ("on", true), ("off", false)]

/-- A truth value in lower case, in upper case or with a capital. -/
def isBool (cs : List Char) : Bool :=
  truths.any fun (word, _) =>
    let lower := word.toList
    cs = lower || cs = lower.map Char.toUpper ||
      cs = (lower.take 1).map Char.toUpper ++ lower.drop 1

/-- A date on its own has two digits for month and day. -/
def isDate (cs : List Char) : Bool :=
  (Moment.ofChars? cs).any fun moment => moment.time.isSome || moment.isWide

def ofPlain (text : String) : Form :=
  let cs := text.toList
  if nulls.contains text then .null
  else if isBool cs then .bool
  else if isFloat cs then .float
  else if isInt cs then .int
  else if text = "<<" then .merge
  else if isDate cs then .date
  else if text = "=" then .default
  else .text

end Form
end Flowchart.Yaml
