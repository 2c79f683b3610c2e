import Flowchart.Number.Coordinate
import Flowchart.Shape

/-!
Scenes: pictures as positioned shapes, connectors and cluster frames. The x axis points to the right and
the y axis down.
-/
namespace Flowchart

structure Point (α : Type) where
  x : α
  y : α
  deriving DecidableEq, Repr, Inhabited

/-- A rectangle with sides along the axes, given by its left and top edges and its extent. -/
structure Box (α : Type) where
  x : α
  y : α
  width : α
  height : α
  deriving DecidableEq, Repr, Inhabited

/-- The four sides of a box. -/
inductive Side where
  | top | bottom | left | right
  deriving DecidableEq, Repr

section
variable {α : Type} [Coordinate α]

namespace Point

def midpoint (a b : Point α) : Point α :=
  ⟨(a.x + b.x) / 2.0, (a.y + b.y) / 2.0⟩

/-- The point moved by the given distances. -/
def shift (dx dy : α) (p : Point α) : Point α :=
  ⟨p.x + dx, p.y + dy⟩

end Point

namespace Box

def right (box : Box α) : α :=
  box.x + box.width

def bottom (box : Box α) : α :=
  box.y + box.height

def center (box : Box α) : Point α :=
  ⟨box.x + box.width / 2.0, box.y + box.height / 2.0⟩

/-- The box moved by the given distances. -/
def shift (dx dy : α) (box : Box α) : Box α :=
  { box with x := box.x + dx, y := box.y + dy }

/-- The point in the middle of a side. -/
def middle (box : Box α) : Side → Point α
  | .top => ⟨box.center.x, box.y⟩
  | .bottom => ⟨box.center.x, box.bottom⟩
  | .left => ⟨box.x, box.center.y⟩
  | .right => ⟨box.right, box.center.y⟩

end Box
end

/-- A positioned node. `order` counts the nodes of the same rank in front of it. -/
structure ShapeBox (α : Type) where
  id : String
  shape : Shape
  label : String
  rank : Nat := 0
  order : Nat := 0
  box : Box α
  deriving Repr, Inhabited

/-- A routed edge: a polyline from its source to its target. `labelAt` is where the label is centred, if
there is one. -/
structure Connector (α : Type) where
  index : Int
  source : String
  target : String
  points : List (Point α)
  style : EdgeStyle
  head : Bool
  label : Option String := none
  labelAt : Option (Point α) := none
  deriving Repr, Inhabited

/-- The frame around the members of a subgraph. -/
structure Cluster (α : Type) where
  id : String
  title : Option String
  box : Box α
  deriving Repr, Inhabited

/-- A picture. -/
structure Scene (α : Type) where
  direction : Direction := .TD
  width : α
  height : α
  shapes : List (ShapeBox α)
  connectors : List (Connector α) := []
  clusters : List (Cluster α) := []
  deriving Repr, Inhabited

namespace Scene

variable {α : Type}

/-- The ids of the nodes, in order. -/
def ids (scene : Scene α) : List String :=
  scene.shapes.map ShapeBox.id

def shape? (scene : Scene α) (id : String) : Option (ShapeBox α) :=
  scene.shapes.find? (·.id == id)

end Scene

section
variable {α : Type} [Coordinate α]

/-- The shape moved by the given distances. -/
def ShapeBox.shift (dx dy : α) (shape : ShapeBox α) : ShapeBox α :=
  { shape with box := shape.box.shift dx dy }

/-- The connector moved by the given distances. -/
def Connector.shift (dx dy : α) (connector : Connector α) : Connector α :=
  { connector with
    points := connector.points.map (Point.shift dx dy)
    labelAt := connector.labelAt.map (Point.shift dx dy) }

/-- The cluster moved by the given distances. -/
def Cluster.shift (dx dy : α) (cluster : Cluster α) : Cluster α :=
  { cluster with box := cluster.box.shift dx dy }

end
end Flowchart
