import Flowchart.Diagram.Parser
import Flowchart.Graph.Builder
import Flowchart.Scene.Layout
import Flowchart.Svg

/-!
Rendering: a source passes the stages one after another, and the first failure ends the run. The result
keeps what was reached, so that a failed layout still tells the graph.
-/
namespace Flowchart

/-- What a run came to. A picture and an error exclude each other. -/
structure Rendering where
  source : String
  graph : Option Graph := none
  scene : Option (Scene Float) := none
  svg : Option String := none
  error : Option Failure := none
  deriving Inhabited

namespace Rendering

def ok (rendering : Rendering) : Bool :=
  rendering.error.isNone

end Rendering

/-- An exception that a renderer raises. -/
inductive Raised where
  /-- The error of drawing. Its class names the last stage; only a class that is derived from it could name another. -/
  | drawing (error : Failure)
  /-- Any other exception: the name of its type, and its text. -/
  | other (type text : String)
  deriving DecidableEq, Repr

namespace Raised

/-- An error of drawing is reported as it is; only errors of a graph cite several places. Nothing else is expected
of a renderer: any other exception counts to the last stage with its text, or with the name of its type if it
has none. -/
def failure : Raised → Failure
  | drawing error => { error with related := [] }
  | other type text => { stage := .render, message := if text = "" then type else text }

end Raised

/-- Turns a scene into a document, or raises an exception. -/
abbrev Renderer := Settings → Scene Float → Except Raised String

namespace Renderer

def svg : Renderer :=
  fun settings scene => .ok (Svg.render settings scene)

end Renderer

namespace Rendering

def graphOf (source : String) : Except Failure Graph := do
  let diagram ← Diagram.ofSource source
  (Graph.ofDiagram diagram).mapError GraphError.failure

/-- Runs the stages up to the layout. -/
def ofSource (source : String) (settings : Settings) : Rendering :=
  match graphOf source with
  | .error failure => { source, error := failure }
  | .ok graph =>
    match Scene.ofGraph graph settings.metrics with
    | .error error => { source, graph, error := error.failure }
    | .ok scene => { source, graph, scene }

def draw (source : String) (settings : Settings) (renderer : Renderer) : Rendering :=
  let laidOut := ofSource source settings
  match laidOut.scene with
  | none => laidOut
  | some scene =>
    match renderer settings scene with
    | .error raised => { source, graph := laidOut.graph, error := raised.failure }
    | .ok svg => { laidOut with svg }

end Rendering
end Flowchart
