import Flowchart.Abort
import Flowchart.Files
import Flowchart.Settings.Schema
import Flowchart.Yaml.Value

/-!
Settings that are kept in a file.
-/
namespace Flowchart

/-- Why there are no settings in a file. -/
inductive SettingsError where
  | missing (path : Path)
  | unreadable (error : FileError)
  | notText
  | badYaml (path : Path) (fault : Yaml.Fault)
  | notMapping (path : Path)
  | badSettings (path : Path) (problems : List Data.Problem)
  deriving Repr

namespace SettingsError

def message : SettingsError → String
  | missing path => s!"Config file not found: {path}"
  | unreadable error => s!"Cannot read config file: {error.message}"
  | notText => "Config file is not UTF-8"
  | badYaml path fault => s!"Invalid YAML in {path}: {fault.message}"
  | notMapping path => s!"{path}: configuration must be a YAML mapping"
  | badSettings path problems => s!"Invalid configuration in {path}: {Data.describeProblems problems}"

/-- The fault that stops a command, if the error is of that kind. -/
def abort? : SettingsError → Option Abort
  | notText => some .notText
  | badYaml _ fault => Abort.ofFault? fault
  | _ => none

end SettingsError

namespace Settings

/-- The settings in the data of a file; without data all stays as it is. -/
def ofLoaded (path : Path) : Except Yaml.Fault Data → Except SettingsError Settings
  | .error fault => .error (.badYaml path fault)
  | .ok .null => .ok standard
  | .ok (.mapping entries) => (ofData (.mapping entries)).mapError (.badSettings path)
  | .ok _ => .error (.notMapping path)

/-- The settings that a text describes. -/
def ofYaml (path : Path) (text : String) : Except SettingsError Settings :=
  ofLoaded path (Yaml.load text)

/-- The settings in what was read of a file. -/
def ofRead (loader : Yaml.Loader) (path : Path) : Except ReadError String → Except SettingsError Settings
  | .error (.file (.missing _)) => .error (.missing path)
  | .error (.file error) => .error (.unreadable error)
  | .error .notText => .error .notText
  | .ok text => ofLoaded path (loader text)

def load {m : Type → Type} [Monad m] [Files m] (path : Path) (loader : Yaml.Loader := Yaml.load) :
    m (Except SettingsError Settings) := do
  return ofRead loader path (← Files.readText path)

end Settings
end Flowchart
