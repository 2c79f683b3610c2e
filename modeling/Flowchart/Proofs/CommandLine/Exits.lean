import Flowchart.Proofs.CommandLine.Commands

/-!
What a run looks like from outside: the code that it ends with, or what stopped it without a code.
-/
namespace Flowchart

/-- What may go wrong with a watch: its file may hold no text, and its delay may be too long for the clock. -/
def Watch.risks (watch : Watch) : CommandLine.Risks where
  file path cause := path = watch.input ∧ cause = .notText
  probe _ := False
  settings cause := cause = .endlessDelay ∧ Preview.delayLimit ≤ watch.settings.debounceMs
  asks := False

namespace CommandLine

variable {loader : Yaml.Loader} {risks : Risks} {before after : World} {outcome : Outcome}

end CommandLine
end Flowchart
