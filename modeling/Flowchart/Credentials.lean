import Flowchart.Abort
import Flowchart.Data.Field
import Flowchart.Files
import Flowchart.Yaml.Entry
import Flowchart.Yaml.Value

/-!
The key for the repair service, kept in a file of its own that only its owner may read.
-/
namespace Flowchart

/-- Where a user keeps files. -/
structure Environment where
  /-- The directory for settings, if one is named. -/
  configHome : Option String := none
  home : String := "/"
  deriving Repr

namespace Environment

/-- The home directory without slashes at its end. -/
def homePath (environment : Environment) : Path :=
  let trimmed := String.ofList (environment.home.toList.reverse.dropWhile (· = '/')).reverse
  Path.ofText (if trimmed.isEmpty then "/" else trimmed)

/-- The directory for settings: the one that is named, or the usual one in the home directory. -/
def settingsPath (environment : Environment) : Path :=
  match environment.configHome with
  | none | some "" => environment.homePath.child ".config"
  | some named => Path.ofText named

def credentialsPath (environment : Environment) : Path :=
  (environment.settingsPath.child "flowdraw").child "credentials.yaml"

end Environment

/-- Why the key could not be read, kept or removed. -/
inductive CredentialError where
  | blankKey
  | unreachable (error : FileError)
  | unreadable (path : Path) (error : FileError)
  | notText (path : Path)
  | badYaml (path : Path) (fault : Yaml.Fault)
  | badEntries (path : Path) (problems : List Data.Problem)
  | unwritable (path : Path) (error : FileError)
  | notRemovable (path : Path) (error : FileError)
  deriving DecidableEq, Repr

namespace CredentialError

def message : CredentialError → String
  | blankKey => "API key must not be empty"
  | unreachable error => error.message
  | unreadable path error => s!"Cannot read credentials file '{path}': {error.message}"
  | notText path => s!"Cannot read credentials file '{path}': not UTF-8"
  | badYaml path fault => s!"Invalid YAML in credentials file '{path}': {fault.message}"
  | badEntries path problems =>
    s!"Invalid credentials file '{path}': {Data.describeProblems problems}"
  | unwritable path error => s!"Cannot write credentials file '{path}': {error.message}"
  | notRemovable path error => s!"Cannot remove credentials file '{path}': {error.message}"

/-- The fault that stops a command, if the error is of that kind. -/
def abort? : CredentialError → Option Abort
  | unreachable error => some (.unreachable error)
  | notText _ => some .notText
  | badYaml _ fault => Abort.ofFault? fault
  | _ => none

end CredentialError

namespace Credentials

/-- The name of the only entry in the file. -/
def keyName : String := "flowdraw_api_key"

/-- The mode of a file that only its owner may read and write. -/
def privateMode : Nat := 0o600

/-- The text of the file for a key. -/
def render (key : String) : String :=
  Yaml.Entry.render keyName key

def asOptionalText : Data → Except Data.Fault (Option String)
  | .null => .ok none
  | data => (Data.asText data).map some

/-- The key among the entries of the file. The empty key counts as none. -/
def ofData : Data → Except (List Data.Problem) (Option String)
  | .null => .ok none
  | .mapping entries =>
    let (key, reader) := Data.Reader.field asOptionalText keyName "api_key" none { entries }
    match reader.finish with
    | [] => .ok (key.filter (· ≠ ""))
    | problems => .error problems
  | _ => .error [⟨"", .notMapping⟩]

/-- The key in the data of the file. -/
def ofLoaded (path : Path) : Except Yaml.Fault Data → Except CredentialError (Option String)
  | .error fault => .error (.badYaml path fault)
  | .ok data => (ofData data).mapError (.badEntries path)

/-- The key in the text of the file. -/
def ofYaml (path : Path) (text : String) : Except CredentialError (Option String) :=
  ofLoaded path (Yaml.load text)

/-- The key in what was read of the file. -/
def ofRead (loader : Yaml.Loader) (path : Path) :
    Except ReadError String → Except CredentialError (Option String)
  | .error (.file error) => .error (.unreadable path error)
  | .error .notText => .error (.notText path)
  | .ok text => ofLoaded path (loader text)

section
variable {m : Type → Type} [Monad m] [Files m]

/-- The key that is kept, if any. -/
def load (path : Path) (loader : Yaml.Loader := Yaml.load) : m (Except CredentialError (Option String)) := do
  match ← Files.isPresent path with
  | .error error => return .error (.unreachable error)
  | .ok false => return .ok none
  | .ok true => return ofRead loader path (← Files.readText path)

/-- Keeps a key without the blanks around it. The file is written before its mode is set. -/
def save (path : Path) (key : String) : m (Except CredentialError Unit) := do
  let key := Text.trim key
  if key = "" then return .error .blankKey
  match ← Files.createDirectories path.parent with
  | .error error => return .error (.unwritable path error)
  | .ok () =>
    match ← Files.write path (render key) with
    | .error error => return .error (.unwritable path error)
    | .ok () =>
      match ← Files.setMode path privateMode with
      | .error error => return .error (.unwritable path error)
      | .ok () => return .ok ()

/-- Removes the key. That there is none is no error. -/
def clear (path : Path) : m (Except CredentialError Unit) := do
  return (← Files.remove path).mapError (.notRemovable path)

end
end Credentials
end Flowchart
