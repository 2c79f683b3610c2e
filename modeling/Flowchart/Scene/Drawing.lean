import Flowchart.Metrics
import Flowchart.Scene

/-!
What is drawn for a scene: the outline of each shape, and the texts with the points they are centred at.
-/
namespace Flowchart

/-- The border of a drawn node. -/
inductive Outline (α : Type) where
  | circle (center : Point α) (radius : α)
  | polygon (corners : List (Point α))
  | rectangle (box : Box α) (radius : α)
  deriving Repr

/-- A text, centred at a point. -/
structure Caption (α : Type) where
  text : String
  place : Point α
  deriving Repr

variable {α : Type} [Coordinate α]

namespace ShapeBox

/-- The border of a shape inside its box. -/
def outline (shape : ShapeBox α) : Outline α :=
  let box := shape.box
  match shape.shape with
  | .circle => .circle box.center (box.width / 2.0)
  | .rhombus => .polygon [box.middle .top, box.middle .right, box.middle .bottom, box.middle .left]
  | .rectangle => .rectangle box 0.0
  | .rounded => .rectangle box (box.height / 4.0)

def caption (shape : ShapeBox α) : Caption α :=
  ⟨shape.label, shape.box.center⟩

end ShapeBox

namespace Connector

/-- The label of a connector, unless it is empty. -/
def caption? (connector : Connector α) : Option (Caption α) :=
  match connector.label, connector.labelAt with
  | some label, some place => if label = "" then none else some ⟨label, place⟩
  | _, _ => none

end Connector

namespace Caption

def background (metrics : Metrics α) (caption : Caption α) : Box α :=
  let (width, height) := metrics.edgeLabelSize caption.text
  ⟨caption.place.x - width / 2.0, caption.place.y - height / 2.0, width, height⟩

end Caption

namespace Cluster

/-- The title of a cluster in the band above its members, unless it is empty. -/
def caption? (metrics : Metrics α) (cluster : Cluster α) : Option (Caption α) :=
  match cluster.title with
  | some title =>
    if title = "" then none
    else
      let box := cluster.box
      some ⟨title, box.x + box.width / 2.0, box.y + metrics.lineHeight / 2.0 + 2.0⟩
  | none => none

end Cluster

namespace Scene

/-- Every text of a picture, in the order of drawing. -/
def captions (metrics : Metrics α) (scene : Scene α) : List (Caption α) :=
  scene.clusters.filterMap (Cluster.caption? metrics) ++
    scene.connectors.filterMap Connector.caption? ++ scene.shapes.map ShapeBox.caption

end Scene
end Flowchart
