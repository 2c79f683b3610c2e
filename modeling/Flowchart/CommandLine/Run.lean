import Flowchart.CommandLine.Command
import Flowchart.Credentials
import Flowchart.Diff.Patch
import Flowchart.Graph.Lint
import Flowchart.Log
import Flowchart.Number.Shortest
import Flowchart.Repair
import Flowchart.Settings.File
import Flowchart.Watch

/-!
What the commands do. Whatever goes wrong is told in one line on the error output, and the command ends
with code 1; only what no command expects stops it without one, such as a file that holds no text.
-/
namespace Flowchart

/-- What offers the editor to a browser. -/
class Server (m : Type → Type) where
  serve (host : String) (number : Int) (settings : Settings) : m Unit

namespace CommandLine

/-- Where a command runs. -/
structure Context where
  verbose : Bool := false
  environment : Environment := {}
  workingDirectory : Path := {}
  /-- How often a watched file is looked at. -/
  looks : Nat := 0
  /-- How the data of settings and of the stored key are read. -/
  loader : Yaml.Loader := Yaml.load

/-- How often a file is looked at with an interval in seconds. Behind the first look an endless one has no end. -/
def Context.looksEvery (context : Context) (interval : Float) : Nat :=
  if interval == 1.0 / 0.0 then min context.looks 1 else context.looks

abbrev Step (m : Type → Type) := ExceptT Outcome m

section
variable {m : Type → Type} [Monad m] [Files m] [Console m] [Clock m] [Repair.Service m] [Server m]

def fail {α : Type} (message : String) : Step m α := do
  Console.error (m := m) message
  throw (.code 1)

def abort {α : Type} (cause : Abort) : Step m α :=
  throw (.aborted cause)

def log (context : Context) (entry : LogEntry) : Step m Unit :=
  entry.write (m := m) context.verbose

/-- The name of the settings file that is used if it is there. -/
def settingsName : String := ".flowdraw.yaml"

def readSettings (context : Context) (path : Path) : Step m Settings := do
  match ← Settings.load (m := m) path context.loader with
  | .ok settings => return settings
  | .error error =>
    match error.abort? with
    | some cause => abort cause
    | none => fail error.message

/-- Whether there is anything at a path. -/
def isPresent (path : Path) : Step m Bool := do
  match ← Files.isPresent (m := m) path with
  | .ok present => return present
  | .error error => abort (.unreachable error)

/-- The settings in the given file, or in the one in the working directory, or else the standard ones. -/
def settings (context : Context) : Option Path → Step m Settings
  | some path => readSettings context path
  | none => do
    let path := context.workingDirectory.child settingsName
    if ← isPresent path then
      log context ⟨.debug, "flowdraw.cli.main", s!"Using configuration from {path}"⟩
      readSettings context path
    else return Settings.standard

def readSource (path : Path) : Step m String := do
  match ← Files.readText (m := m) path with
  | .ok source => return source
  | .error .notText => abort .notText
  | .error (.file (.missing _)) => fail s!"file '{path}' does not exist."
  | .error (.file error) => fail (Watch.unreadable path error)

def draw (context : Context) (source : String) (settings : Settings) : Step m Rendering := do
  let rendering := Rendering.draw source settings Renderer.svg
  (LogEntry.ofRendering rendering).forM (log context)
  return rendering

/-- What is said about a source that fails. -/
def failed (path : Path) (failure : Failure) : String :=
  s!"{path}: {failure.describe}"

def render (context : Context) (config : Option Path) (input : Path) (output : Option Path) :
    Step m Unit := do
  let settings ← settings context config
  let rendering ← draw context (← readSource input) settings
  if let some failure := rendering.error then fail (failed input failure)
  let picture := rendering.svg.getD ""
  match output with
  | none => if settings.isEncodable then Console.printLine (m := m) picture else abort .notEncodable
  | some path =>
    match ← Watch.writePicture (m := m) path picture settings.isEncodable with
    | .ok isThere => if !isThere then throw (.code 1)
    | .error cause => abort cause

/-- Tells the errors of a file and what is odd about it. -/
def check (context : Context) (config : Option Path) (input : Path) : Step m Unit := do
  let settings ← settings context config
  let rendering ← draw context (← readSource input) settings
  if let some failure := rendering.error then fail (failed input failure)
  match rendering.graph with
  | none => fail s!"{input}: the pipeline produced no graph."
  | some graph =>
    let warnings := graph.warnings
    for warning in warnings do
      Console.warning (m := m) warning.message
    let counts :=
      [s!"{graph.nodes.length} node(s)", s!"{graph.edges.length} edge(s)",
        s!"{warnings.length} warning(s)."]
    let counts := ", ".intercalate counts
    Console.printLine (m := m) s!"Checked '{input}': {counts}"

/-- Milliseconds in some seconds, which are taken as the decimal number that is written for them. What is no number
of seconds counts for none. -/
def milliseconds (seconds : Float) : Rat :=
  match Number.decode seconds with
  | .finite negative mantissa exponent =>
    let (units, place) := Number.shortestDigits seconds.abs mantissa exponent
    let size := mkRat (units * Nat.pow 10 (place + 3).toNat) (Nat.pow 10 (-(place + 3)).toNat)
    if negative then -size else size
  | _ => 0

def watch (context : Context) (config : Option Path) (input output : Path) (interval : Float) :
    Step m Unit := do
  let settings ← settings context config
  if !(← isPresent input) then fail s!"file '{input}' does not exist."
  Console.printLine (m := m) s!"Watching '{input}' (Ctrl+C to stop)..."
  log context ⟨.debug, "asyncio", "Using selector: EpollSelector"⟩
  let watch : Watch := { input, output, settings, interval := milliseconds interval }
  throw (← watch.run (m := m) (context.looksEvery interval))

/-- The part of the program that asks for repairs. -/
def repairOrigin : String := "flowdraw.repair.service"

/-- The key to ask for repairs with. -/
def readKey (context : Context) : Step m String := do
  match ← Credentials.load (m := m) context.environment.credentialsPath context.loader with
  | .ok (some key) => return key
  | .ok none => fail "no API key stored. Run 'flowdraw set-key KEY' first."
  | .error error =>
    match error.abort? with
    | some cause => abort cause
    | none => fail error.message

def suggest (context : Context) (settings : Settings) (key source : String) (failure : Failure) :
    Step m Suggestion := do
  let account : Repair.Account :=
    { key, model := settings.aiModel, temperature := settings.aiTemperature }
  log context ⟨.debug, repairOrigin, s!"Requesting repair from {account.model}"⟩
  let answer : m (Except Repair.Error Suggestion) :=
    Repair.suggest (Repair.correct account) source failure
  match ← answer with
  | .ok suggestion => return suggestion
  | .error error =>
    if let .failed reason := error then
      log context ⟨.error, repairOrigin, s!"Repair request failed: {reason}"⟩
    fail error.message

/-- Shows a repair of a file that fails, and puts it into the file if it is accepted. -/
def fix (context : Context) (config : Option Path) (input : Path) (accept : Bool) : Step m Unit := do
  let settings ← settings context config
  let source ← readSource input
  let rendering ← draw context source settings
  match rendering.error with
  | none => Console.printLine (m := m) s!"'{input}' renders without errors; nothing to fix."
  | some failure =>
    Console.printLine (m := m) (failed input failure)
    let key ← readKey context
    let suggestion ← suggest context settings key source failure
    if !suggestion.changed then
      Console.printLine (m := m) "The repair service suggested no changes."
      throw (.code 1)
    Console.print (m := m) (Diff.patch source suggestion.text input.name)
    if accept then
      match ← Files.write (m := m) input (suggestion.text ++ "\n") with
      | .ok () => Console.success (m := m) s!"Applied suggestion to '{input}'."
      | .error error => fail s!"cannot write '{input}': {error.message}"
    else Console.printLine (m := m) "Run again with --apply to write the suggestion."

def setKey (context : Context) (key : String) : Step m Unit := do
  let path := context.environment.credentialsPath
  match ← Credentials.save (m := m) path key with
  | .ok () => Console.printLine (m := m) s!"API key stored in '{path}'."
  | .error error => fail error.message

def clearKey (context : Context) : Step m Unit := do
  match ← Credentials.clear (m := m) context.environment.credentialsPath with
  | .ok () => Console.printLine (m := m) "API key removed."
  | .error error => fail error.message

def serve (context : Context) (config : Option Path) (host : String) (number : Int) : Step m Unit := do
  let settings ← settings context config
  Console.printLine (m := m) s!"Starting Flowdraw editor at http://{host}:{number}/"
  Server.serve (m := m) host number settings

def Command.step (context : Context) : Command → Step m Unit
  | .render config input output => CommandLine.render context config input output
  | .check config input => CommandLine.check context config input
  | .watch config input output interval => CommandLine.watch context config input output interval
  | .fix config input accept => CommandLine.fix context config input accept
  | .setKey key => CommandLine.setKey context key
  | .clearKey => CommandLine.clearKey context
  | .serve config host number => CommandLine.serve context config host number

def Command.run (context : Context) (command : Command) : m Outcome := do
  match ← (command.step context : Step m Unit).run with
  | .ok () => return .code 0
  | .error outcome => return outcome

end
end CommandLine
end Flowchart
