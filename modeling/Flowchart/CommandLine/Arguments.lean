import Flowchart.Number.Decimal
import Flowchart.Text.Digit
import Flowchart.Text.Quoted

/-!
Reading the arguments of a command by a grammar: switches, which may take a value, and one operand, which
may take everything behind it. Switches may be shortened as long as they stay unambiguous, and behind two
hyphens nothing is a switch.
-/
namespace Flowchart.CommandLine

/-- What kind of value a switch takes. -/
inductive ValueKind where
  | text | integer | number
  deriving DecidableEq, Repr

/-- A switch under its names. -/
structure Switch where
  names : List String
  value : Option ValueKind := none
  required : Bool := false
  deriving DecidableEq, Repr

namespace Switch

def label (switch : Switch) : String :=
  "/".intercalate switch.names

def help : Switch :=
  { names := ["-h", "--help"] }

end Switch

/-- What may follow a command. -/
structure Grammar where
  /-- The command, with the program in front of it. -/
  program : String
  switches : List Switch
  operand : Option String := none
  /-- The operand takes all arguments behind it as well. -/
  takesRest : Bool := false
  deriving Repr

/-- What is wrong with arguments. -/
inductive UsageError where
  | ambiguous (given : String) (names : List String)
  | noValue (switch : Switch)
  | unwantedValue (switch : Switch) (given : String)
  | badValue (switch : Switch) (kind : ValueKind) (given : String)
  | missing (names : List String)
  | unknownCommand (given : String) (commands : List String)
  | unknownArguments (given : List String)
  deriving DecidableEq, Repr

namespace UsageError

def message : UsageError → String
  | ambiguous given names =>
    let names := ", ".intercalate names
    s!"ambiguous option: {given} could match {names}"
  | noValue switch => s!"argument {switch.label}: expected one argument"
  | unwantedValue switch given =>
    let given := Text.quoted given
    s!"argument {switch.label}: ignored explicit argument {given}"
  | badValue switch kind given =>
    let given := Text.quoted given
    let kind := if kind = .integer then "int" else "float"
    s!"argument {switch.label}: invalid {kind} value: {given}"
  | missing names =>
    let names := ", ".intercalate names
    s!"the following arguments are required: {names}"
  | unknownCommand given commands =>
    let given := Text.quoted given
    let commands := ", ".intercalate (commands.map Text.quoted)
    s!"argument COMMAND: invalid choice: {given} (choose from {commands})"
  | unknownArguments given =>
    let given := " ".intercalate given
    s!"unrecognized arguments: {given}"

end UsageError

/-- Why arguments make no command. -/
inductive Stop where
  | help
  | usage (program : String) (error : UsageError)
  deriving Repr

namespace Stop

def line? : Stop → Option String
  | help => none
  | usage program error => some s!"{program}: error: {error.message}"

end Stop

/-- What stands in the same argument as a switch: a value behind an equals sign, or whatever follows a
short switch. -/
inductive Attached where
  | assigned (text : String)
  | joined (text : String)
  deriving DecidableEq, Repr

namespace Attached

def text : Attached → String
  | assigned text | joined text => text

end Attached

/-- What an argument is taken for. -/
inductive Argument where
  | separator
  | operand (text : String)
  | switch (given : String) (switch : Switch) (attached : Option Attached)
  | unknown (given : String)
  deriving Repr

namespace Argument

def text : Argument → String
  | separator => "--"
  | operand text => text
  | switch given _ _ => given
  | unknown given => given

end Argument

/-- What the arguments of a command say. -/
structure Arguments where
  /-- The switches, each with its value. -/
  given : List (Switch × String) := []
  operand : Option String := none
  /-- What follows an operand that takes everything. -/
  rest : List String := []
  unknown : List String := []

namespace Arguments

/-- The value of the last switch of a name. -/
def value? (arguments : Arguments) (name : String) : Option String :=
  (arguments.given.reverse.find? fun (switch, _) => switch.names.contains name).map (·.2)

/-- Whether there is a switch of a name. -/
def has (arguments : Arguments) (name : String) : Bool :=
  (arguments.value? name).isSome

end Arguments

/-- Digits without the underscores, if each of them stands between two digits. -/
def joinDigits? : List Char → Option (List Char)
  | [] => some []
  | '_' :: _ => none
  | c :: '_' :: d :: rest =>
    if c.isDigit && d.isDigit then (joinDigits? (d :: rest)).map (c :: ·) else none
  | c :: rest => (joinDigits? rest).map (c :: ·)

/-- A numeral with blanks around it, any script's digits and underscores between digits, in plain ASCII. -/
def plainNumeral? (text : String) : Option (List Char) :=
  joinDigits? (Text.plainDigits (Text.trimNumeral text.toList))

/-- The most digits that an integer may have. -/
def maxDigits : Nat := 4300

/-- The integer that a whole text is. -/
def readInteger? (text : String) : Option Int := do
  let (negative, digits) := Number.splitSign (← plainNumeral? text)
  if digits.isEmpty || !digits.all Char.isDigit || maxDigits < digits.length then none
  else
    let value : Int := Number.digitsValue digits
    return if negative then -value else value

/-- The number that a whole text is. -/
def readNumber? (text : String) : Option Float :=
  (plainNumeral? text).bind Number.readFloat?

namespace ValueKind

/-- Whether a text is a value of the kind. -/
def admits (kind : ValueKind) (text : String) : Bool :=
  match kind with
  | .text => true
  | .integer => (readInteger? text).isSome
  | .number => (readNumber? text).isSome

end ValueKind

namespace Grammar

def names (grammar : Grammar) : List (String × Switch) :=
  grammar.switches.flatMap fun switch => switch.names.map fun name => (name, switch)

/-- An argument before an equals sign and behind it. -/
def splitValue (given : String) : String × Option Attached :=
  let cs := given.toList
  match cs.dropWhile (· ≠ '=') with
  | _ :: value => (String.ofList (cs.takeWhile (· ≠ '=')), some (.assigned (String.ofList value)))
  | [] => (given, none)

/-- The switches that an argument may be short for, each with its name and with what is attached to it. -/
def candidates (grammar : Grammar) (given : String) : List (String × Switch × Option Attached) :=
  if given.startsWith "--" then
    let (start, value) := splitValue given
    (grammar.names.filter fun (name, _) => name.startsWith start).map fun (name, switch) =>
      (name, switch, value)
  else
    let short := String.ofList (given.toList.take 2)
    let behind := String.ofList (given.toList.drop 2)
    (grammar.names.filter fun (name, _) => name = short).map fun (name, switch) =>
      (name, switch, some (.joined behind))

/-- A negative number, which is no switch. A line feed may follow it. -/
def isNegativeNumber (given : String) : Bool :=
  match Text.plainDigits given.toList with
  | '-' :: rest =>
    let (whole, rest) := Number.spanDigits (if rest.getLast? = some '\n' then rest.dropLast else rest)
    match rest with
    | [] => !whole.isEmpty
    | '.' :: fraction => !fraction.isEmpty && fraction.all Char.isDigit
    | _ => false
  | _ => false

/-- What an argument is, unless everything is an operand. -/
def classify (grammar : Grammar) (given : String) : Except UsageError Argument :=
  if !given.startsWith "-" || given = "-" then .ok (.operand given)
  else
    let exact (name : String) := grammar.names.lookup name
    match exact given with
    | some switch => .ok (.switch given switch none)
    | none =>
      let (name, value) := splitValue given
      match value, exact name with
      | some _, some switch => .ok (.switch given switch value)
      | _, _ =>
        match grammar.candidates given with
        | [(_, switch, value)] => .ok (.switch given switch value)
        | [] =>
          if isNegativeNumber given || given.toList.contains ' ' then .ok (.operand given)
          else .ok (.unknown given)
        | several => .error (.ambiguous given (several.map (·.1)))

def classifyAll (grammar : Grammar) : List String → Except UsageError (List Argument)
  | [] => .ok []
  | given :: rest =>
    if given = "--" then .ok (.separator :: rest.map .operand)
    else do
      let first ← grammar.classify given
      return first :: (← grammar.classifyAll rest)

/-- What an argument holds: switches without a value, perhaps one more switch that takes a value, which may
be there already, and perhaps an end that is no switch. -/
structure Unfolded where
  switches : List Switch := []
  last : Option (Switch × Option String) := none
  unknown : List String := []

/-- A switch without a value, and the short switches that share its hyphen. -/
def unfold (grammar : Grammar) (switch : Switch) : List Char → Except UsageError Unfolded
  | [] => .ok { switches := [switch] }
  | letter :: behind =>
    if letter = '-' then .error (.unwantedValue switch (String.ofList (letter :: behind)))
    else match grammar.names.lookup (String.ofList ['-', letter]) with
    | none => .ok { switches := [switch], unknown := [String.ofList ('-' :: letter :: behind)] }
    | some next =>
      match next.value, behind with
      | some _, [] => .ok { switches := [switch], last := some (next, none) }
      | some _, '=' :: value | some _, value =>
        .ok { switches := [switch], last := some (next, some (String.ofList value)) }
      | none, '=' :: value => .error (.unwantedValue next (String.ofList value))
      | none, behind =>
        (unfold grammar next behind).map fun found => { found with switches := switch :: found.switches }

/-- The switches in an argument that starts with one. -/
def unfoldAttached (grammar : Grammar) (switch : Switch) (attached : Option Attached) :
    Except UsageError Unfolded :=
  match switch.value, attached with
  | some _, attached => .ok { last := some (switch, attached.map Attached.text) }
  | none, none => .ok { switches := [switch] }
  | none, some (.assigned value) => .error (.unwantedValue switch value)
  | none, some (.joined behind) => grammar.unfold switch behind.toList

/-- Takes a switch, if its value is of the right kind. -/
def take (found : Arguments) (switch : Switch) (value : String) : Except UsageError Arguments :=
  match switch.value.filter fun kind => !kind.admits value with
  | some kind => .error (.badValue switch kind value)
  | none => .ok { found with given := found.given ++ [(switch, value)] }

/-- Takes switches without values, unless one asks for help. -/
def takeAll (program : String) (found : Arguments) (switches : List Switch) : Except Stop Arguments :=
  switches.foldlM
    (fun found switch =>
      if switch = Switch.help then .error .help
      else (take found switch "").mapError (.usage program))
    found

def collect (grammar : Grammar) (found : Arguments) : List Argument → Except Stop Arguments
  | [] => .ok found
  | .unknown given :: rest =>
    grammar.collect { found with unknown := found.unknown ++ [given] } rest
  | .switch _ switch attached :: rest => do
    let usage := Stop.usage grammar.program
    let held ← (grammar.unfoldAttached switch attached).mapError usage
    let found := { found with unknown := found.unknown ++ held.unknown }
    match held.last with
    | none => grammar.collect (← takeAll grammar.program found held.switches) rest
    | some (switch, some value) =>
      let found ← takeAll grammar.program found held.switches
      grammar.collect (← (take found switch value).mapError usage) rest
    | some (switch, none) =>
      match rest with
      | .operand value :: rest =>
        let found ← takeAll grammar.program found held.switches
        grammar.collect (← (take found switch value).mapError usage) rest
      | _ => throw (usage (.noValue switch))
  | argument :: rest =>
    let isPending := grammar.operand.isSome && found.operand.isNone
    let leaveOut := { found with unknown := found.unknown ++ [argument.text] }
    match isPending, grammar.takesRest, argument, rest with
    | false, _, _, rest => grammar.collect leaveOut rest
    | true, _, .separator, [] => .ok leaveOut
    | true, true, argument, rest =>
      .ok { found with operand := argument.text, rest := rest.map Argument.text }
    | true, false, .separator, argument :: rest =>
      grammar.collect { found with operand := argument.text } rest
    | true, false, argument, .separator :: rest =>
      grammar.collect { found with operand := argument.text } rest
    | true, false, argument, rest => grammar.collect { found with operand := argument.text } rest

/-- What the arguments say, as far as they are known. -/
def read (grammar : Grammar) (arguments : List String) : Except Stop Arguments := do
  let usage := Stop.usage grammar.program
  let sorted ← (grammar.classifyAll arguments).mapError usage
  let found ← grammar.collect {} sorted
  let operand := if found.operand.isNone && !grammar.takesRest then grammar.operand.toList else []
  let required := grammar.switches.filter fun switch =>
    switch.required && !found.given.any (·.1 = switch)
  match operand ++ required.map Switch.label with
  | [] => return found
  | names => throw (usage (.missing names))

end Grammar
end Flowchart.CommandLine
