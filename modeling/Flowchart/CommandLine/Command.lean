import Flowchart.CommandLine.Arguments
import Flowchart.Files.Path

/-!
The commands of the program and how they are written.
-/
namespace Flowchart.CommandLine

/-- What is asked for. -/
inductive Command where
  | render (settings : Option Path) (input : Path) (output : Option Path)
  | check (settings : Option Path) (input : Path)
  /-- The interval is in seconds. -/
  | watch (settings : Option Path) (input output : Path) (interval : Float)
  | fix (settings : Option Path) (input : Path) (accept : Bool)
  | setKey (key : String)
  | clearKey
  | serve (settings : Option Path) (host : String) (number : Int)
  deriving Repr

/-- A command, and whether it tells what it does. No command asks for help. -/
structure Invocation where
  verbose : Bool := false
  command : Option Command := none
  deriving Repr

namespace Command

def program : String := "flowdraw"

def names : List String :=
  ["render", "check", "watch", "fix", "set-key", "clear-key", "serve"]

def settingsSwitch : Switch :=
  { names := ["--config"], value := some .text }

def outputSwitch (required : Bool) : Switch :=
  { names := ["-o", "--output"], value := some .text, required }

def general : Grammar where
  program
  switches := [Switch.help, { names := ["-v", "--verbose"] }]
  operand := some "COMMAND"
  takesRest := true

/-- What may follow a command; nothing for a name that is none. -/
def grammar? (name : String) : Option Grammar :=
  let ofSwitches (switches : List Switch) (operand : Option String) : Grammar :=
    { program := s!"{program} {name}", switches := Switch.help :: switches, operand }
  match name with
  | "render" => some (ofSwitches [settingsSwitch, outputSwitch false] "file")
  | "check" => some (ofSwitches [settingsSwitch] "file")
  | "watch" =>
    let interval : Switch := { names := ["--interval"], value := some .number }
    some (ofSwitches [settingsSwitch, outputSwitch true, interval] "file")
  | "fix" => some (ofSwitches [settingsSwitch, { names := ["--apply"] }] "file")
  | "set-key" => some (ofSwitches [] "key")
  | "clear-key" => some (ofSwitches [] none)
  | "serve" =>
    let numberSwitch : Switch := { names := ["--port"], value := some .integer }
    let hostSwitch : Switch := { names := ["--host"], value := some .text }
    some (ofSwitches [settingsSwitch, numberSwitch, hostSwitch] none)
  | _ => none

/-- The command of a name with its arguments. -/
def ofArguments? (name : String) (found : Arguments) : Option Command :=
  let settings := (found.value? "--config").map Path.ofText
  let operand := found.operand.getD ""
  let input := Path.ofText operand
  let output := (found.value? "--output").map Path.ofText
  match name with
  | "render" => some (.render settings input output)
  | "check" => some (.check settings input)
  | "watch" =>
    let interval := ((found.value? "--interval").bind readNumber?).getD 0.5
    some (.watch settings input (output.getD default) interval)
  | "fix" => some (.fix settings input (found.has "--apply"))
  | "set-key" => some (.setKey operand)
  | "clear-key" => some .clearKey
  | "serve" =>
    let host := (found.value? "--host").getD "127.0.0.1"
    let number := ((found.value? "--port").bind readInteger?).getD 8050
    some (.serve settings host number)
  | _ => none

end Command

namespace Invocation

/-- What the arguments of the program ask for. -/
def ofArguments (arguments : List String) : Except Stop Invocation := do
  let before ← Command.general.read arguments
  let verbose := before.has "--verbose"
  let usage := Stop.usage Command.program
  match before.operand with
  | none =>
    if before.unknown.isEmpty then return { verbose }
    else throw (usage (.unknownArguments before.unknown))
  | some name =>
    match Command.grammar? name with
    | none => throw (usage (.unknownCommand name Command.names))
    | some grammar =>
      let found ← grammar.read before.rest
      match before.unknown ++ found.unknown with
      | [] => return { verbose, command := Command.ofArguments? name found }
      | unknown => throw (usage (.unknownArguments unknown))

end Invocation
end Flowchart.CommandLine
