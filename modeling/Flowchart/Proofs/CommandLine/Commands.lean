import Flowchart.Proofs.CommandLine.Findings

/-!
Every command ends as it should, or stops at a file that holds no text or no values where it promises some, at a path
that cannot be probed, or for the sake of its settings: its parts do so one by one, and nothing between them reads a
file.
-/
namespace Flowchart.CommandLine

variable {α β : Type} {loader : Yaml.Loader} {risks : Risks} {before between after : World}

/-- The file that holds the settings of a command, given or not. -/
def settingsPath (context : Context) (config : Option Path) : Path :=
  config.getD (context.workingDirectory.child settingsName)

namespace Command

end Command

section parts

end parts

section commands

variable {context : Context} {config : Option Path}

end commands
end Flowchart.CommandLine
