import Flowchart.CommandLine.Run

/-!
The program: commands run on the files, the terminal and the clock of the machine. It has no network, so
that no repair is answered and no page is served.
-/
namespace Flowchart

/-- A run of the program; it knows when it started. -/
abbrev Session := ReaderT Nat IO

namespace Session

/-- The error that the machine tells about a path. -/
def errorAt (path : Path) : IO.Error → FileError
  | .noFileOrDirectory _ _ _ => .missing path
  | .alreadyExists _ _ _ => .alreadyExists path
  | .inappropriateType _ code details =>
    if code = 20 then .notDirectory path
    else if code = 21 then .isDirectory path
    else .other details
  | error => .other (toString error)

/-- What comes of an action on a path. -/
def attempt {α : Type} (path : Path) (action : IO α) : Session (Except FileError α) := do
  try
    return .ok (← action)
  catch error => return .error (errorAt path error)

/-- The rights of a file mode, for the owner, the group and all others. -/
def rights (mode : Nat) : IO.FileRight :=
  let access (digit : Nat) : IO.AccessRight :=
    { read := digit / 4 % 2 = 1, write := digit / 2 % 2 = 1, execution := digit % 2 = 1 }
  { user := access (mode / 64), group := access (mode / 8), other := access mode }

instance : Files Session where
  isPresent path := do
    match ← attempt path (IO.FS.Handle.mk path.text .read) with
    | .ok _ => return .ok true
    | .error (.missing _) | .error (.notDirectory _) => return .ok false
    | .error error => return .error error
  readText path := do
    return (← attempt path (IO.FS.readBinFile path.text)).mapError .file >>= Files.decode
  write path text := attempt path (IO.FS.writeFile path.text text)
  createDirectories path := attempt path (IO.FS.createDirAll path.text)
  setMode path mode := attempt path (IO.setAccessRights path.text (rights mode))
  remove path := do
    match ← attempt path (IO.FS.removeFile path.text) with
    | .error (.missing _) => return .ok ()
    | result => return result

instance : Console Session where
  print text := do
    let output ← IO.getStdout
    output.putStr text
    output.flush
  report text := do
    (← IO.getStderr).putStr text

instance : Clock Session where
  waitUntil time := do
    let passed := (← IO.monoMsNow) - (← read)
    IO.sleep (time.ceil.toNat - passed).toUInt32

instance : Repair.Service Session where
  ask _ := return .error "there is no connection to the service"

instance : Server Session where
  serve _ _ _ := Console.error "there is no connection to serve a browser"

/-- What the program asks for when no command is given. -/
def usage : String :=
  let names := ",".intercalate CommandLine.Command.names
  String.join ["usage: ", CommandLine.Command.program, " [-h] [-v] \x7b", names, "\x7d ...\n"]

def context (verbose : Bool) : IO CommandLine.Context := do
  let configHome ← IO.getEnv "XDG_CONFIG_HOME"
  let home := (← IO.getEnv "HOME").getD "/"
  let workingDirectory := Path.ofText (← IO.currentDir).toString
  return { verbose, environment := { configHome, home }, workingDirectory, looks := Nat.pow 2 60 }

/-- Runs the program with its arguments: the code that it ends with. -/
def run (arguments : List String) : Session UInt32 := do
  match CommandLine.Invocation.ofArguments arguments with
  | .error stop =>
    match stop.line? with
    | none =>
      Console.print usage
      return 0
    | some line =>
      Console.report (usage ++ line ++ "\n")
      return 2
  | .ok ⟨_, none⟩ =>
    Console.print usage
    return 0
  | .ok ⟨verbose, some command⟩ =>
    let outcome : Outcome ← command.run (← context verbose)
    match outcome with
    | .code code => return code.toUInt32
    | .aborted cause =>
      Console.report (cause.message ++ "\n")
      return 1

end Session
end Flowchart

def main (arguments : List String) : IO UInt32 := do
  Flowchart.Session.run arguments (← IO.monoMsNow)
