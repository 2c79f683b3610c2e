import Flowchart.Console
import Flowchart.Render

/-!
What a command tells about its work, for those who want to follow it.
-/
namespace Flowchart

/-- How much an entry matters. -/
inductive Level where
  | debug | warning | error
  deriving DecidableEq, Repr

namespace Level

def name : Level → String
  | debug => "DEBUG"
  | warning => "WARNING"
  | error => "ERROR"

end Level

/-- An entry and the part of the program that it comes from. -/
structure LogEntry where
  level : Level
  origin : String
  message : String
  deriving DecidableEq, Repr

namespace LogEntry

/-- Entries about details are only shown to those who asked for them. -/
def isShown (verbose : Bool) (entry : LogEntry) : Bool :=
  verbose || entry.level ≠ .debug

def line (entry : LogEntry) : String :=
  s!"{entry.level.name} {entry.origin}: {entry.message}\n"

def write {m : Type → Type} [Monad m] [Console m] (verbose : Bool) (entry : LogEntry) : m Unit :=
  if entry.isShown verbose then Console.report entry.line else pure ()

/-- The part of the program that renders. -/
def pipeline : String := "flowdraw.compiler.pipeline"

/-- What is told about a run: how far it came, and whether the picture failed. -/
def ofRendering (rendering : Rendering) : List LogEntry :=
  let counted (graph : Graph) : LogEntry :=
    ⟨.debug, pipeline,
      s!"Rendered {graph.nodes.length} node(s), {graph.edges.length} edge(s)"⟩
  match rendering.error, rendering.graph with
  | none, some graph => [counted graph]
  | none, none => []
  | some failure, graph =>
    if failure.stage = .render then
      (graph.map counted).toList ++
        [⟨.warning, pipeline, s!"Vector renderer failed: {failure.located}"⟩]
    else
      [⟨.debug, pipeline, s!"Render failed in {failure.stage.name} stage: {failure.located}"⟩]

end LogEntry
end Flowchart
