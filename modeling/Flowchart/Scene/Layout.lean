import Flowchart.Failure
import Flowchart.Scene.Cluster
import Flowchart.Scene.Route

/-!
Layout: nodes are placed, subgraphs framed and edges routed; then everything is moved so that it starts
at the padding, and the canvas is sized so that it ends at the padding.
-/
namespace Flowchart

variable {α : Type} [Coordinate α]

/-- The background of the label of a connector, or its first point if it shows no label. -/
def Connector.labelBounds (metrics : Metrics α) (connector : Connector α) :
    (α × α) × (α × α) :=
  match connector.label, connector.labelAt with
  | some label, some place =>
    if label = "" then start
    else
      let (width, height) := metrics.edgeLabelSize label
      ((place.x - width / 2.0, place.y - height / 2.0), (place.x + width / 2.0, place.y + height / 2.0))
  | _, _ => start
where
  start : (α × α) × (α × α) :=
    let point := connector.points.headD default
    ((point.x, point.y), (point.x, point.y))

namespace Layout

/-- The content of a picture before it is moved into place. -/
structure Content (α : Type) where
  boxes : List (ShapeBox α)
  clusters : List (Cluster α)
  connectors : List (Connector α)

namespace Content

/-- The left edges of everything there is. -/
def lefts (metrics : Metrics α) (content : Content α) : List α :=
  content.boxes.map (·.box.x) ++ content.clusters.map (·.box.x) ++
    content.connectors.flatMap fun connector =>
      connector.points.map Point.x ++ [(connector.labelBounds metrics).1.1]

/-- The top edges of everything there is. -/
def tops (metrics : Metrics α) (content : Content α) : List α :=
  content.boxes.map (·.box.y) ++ content.clusters.map (·.box.y) ++
    content.connectors.flatMap fun connector =>
      connector.points.map Point.y ++ [(connector.labelBounds metrics).1.2]

/-- The right edges of everything there is. -/
def rights (metrics : Metrics α) (content : Content α) : List α :=
  content.boxes.map (·.box.right) ++ content.clusters.map (·.box.right) ++
    (content.connectors.flatMap fun connector => connector.points.map Point.x) ++
    content.connectors.map fun connector => (connector.labelBounds metrics).2.1

/-- The bottom edges of everything there is. -/
def bottoms (metrics : Metrics α) (content : Content α) : List α :=
  content.boxes.map (·.box.bottom) ++ content.clusters.map (·.box.bottom) ++
    (content.connectors.flatMap fun connector => connector.points.map Point.y) ++
    content.connectors.map fun connector => (connector.labelBounds metrics).2.2

def shift (dx dy : α) (content : Content α) : Content α :=
  ⟨content.boxes.map (ShapeBox.shift dx dy), content.clusters.map (Cluster.shift dx dy),
    content.connectors.map (Connector.shift dx dy)⟩

/-- The boxes in the order of the given ids. -/
def arrange (ids : List String) (content : Content α) : Content α :=
  { content with boxes := ids.map (Placement.find content.boxes) }

/-- How far content that starts at the given edges is moved: never to the left or up. -/
def offset (metrics : Metrics α) (edges : List α) : α :=
  Coordinate.larger 0.0 (metrics.padding - Coordinate.minimum edges)

/-- The scene of some content, its shapes in the order of the given ids. -/
def scene (direction : Direction) (metrics : Metrics α) (ids : List String) (content : Content α) :
    Scene α :=
  let dx := offset metrics (content.lefts metrics)
  let dy := offset metrics (content.tops metrics)
  let moved := (content.arrange ids).shift dx dy
  { direction
    width := Coordinate.maximum (moved.rights metrics) + metrics.padding
    height := Coordinate.maximum (moved.bottoms metrics) + metrics.padding
    shapes := moved.boxes
    connectors := moved.connectors
    clusters := moved.clusters }

end Content
end Layout

namespace Scene

def ofGraph (graph : Graph) (metrics : Metrics α) : Except LayoutError (Scene α) :=
  if graph.nodes = [] then .error .noNodes
  else match graph.missingEnd? with
    | some id => .error (.unknownId id)
    | none => do
      let order ← graph.nestingOrder
      let boxes := Placement.boxes graph metrics
      let content : Layout.Content α :=
        ⟨boxes, Cluster.ofGraph graph metrics boxes order, Connector.ofGraph graph boxes⟩
      return content.scene graph.direction metrics graph.ids

end Scene

namespace LayoutError

def failure (error : LayoutError) : Failure :=
  ⟨.layout, error.message, none, []⟩

end LayoutError
end Flowchart
