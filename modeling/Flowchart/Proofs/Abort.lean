import Flowchart.Credentials
import Flowchart.Settings.File

/-!
Which files stop a command. Settings and keys are read from YAML; of all that can be wrong with such a file, what stops
a command is that it holds no text, or data that are not built, whatever the loader refuses so.
-/
namespace Flowchart

variable {loader : Yaml.Loader} {cause : Abort} {text : String}

/-- What was read of a YAML file stops a command. -/
inductive Stops (loader : Yaml.Loader) : Except ReadError String → Abort → Prop where
  | notText : Stops loader (.error .notText) .notText
  | badValue {text : String} {fault : Yaml.Fault} : loader text = .error fault → fault ≠ .malformed →
      Stops loader (.ok text) (.badValue fault)

/-- What a result stops a command with, if its error is of that kind. -/
def stop? {ε α : Type} (abort? : ε → Option Abort) : Except ε α → Option Abort
  | .ok _ => none
  | .error error => abort? error

end Flowchart
