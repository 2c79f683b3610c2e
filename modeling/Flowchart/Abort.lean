import Flowchart.Files
import Flowchart.Yaml.Fault

/-!
Faults that no command expects, and that stop it without an answer.
-/
namespace Flowchart

/-- Why a command stops without an answer. -/
inductive Abort where
  /-- A file that should hold text does not. -/
  | notText
  /-- A file holds a number, a truth value or a date that is none. -/
  | badValue (fault : Yaml.Fault)
  /-- It cannot be told whether a file is there. -/
  | unreachable (error : FileError)
  /-- A picture has surrogates in it, from the name of its fonts. -/
  | notEncodable
  /-- The delay in seconds is more than any double. -/
  | endlessDelay
  deriving DecidableEq, Repr

namespace Abort

/-- The fault of a YAML text that stops a command; that a text is no YAML at all does not. -/
def ofFault? (fault : Yaml.Fault) : Option Abort :=
  if fault = .malformed then none else some (.badValue fault)

def message : Abort → String
  | notText => "a file is not UTF-8"
  | badValue fault => fault.message
  | unreachable error => error.message
  | notEncodable => "surrogates not allowed"
  | endlessDelay => "integer division result too large for a float"

end Abort
end Flowchart
