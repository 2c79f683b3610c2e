import Flowchart.Graph.Rank
import Flowchart.Metrics
import Flowchart.Scene

/-!
Boxes of the nodes. Ranks follow one another along the direction of the diagram, each as deep as its
deepest node; the nodes of a rank stand side by side in the order of the graph, and every rank is
centred on the widest one.
-/
namespace Flowchart

variable {α : Type} [Coordinate α]

namespace Metrics

def nodeSize (metrics : Metrics α) (shape : Shape) (label : String) : α × α :=
  let text := metrics.textWidth label + 2.0 * metrics.labelPadding
  let width := Coordinate.larger metrics.nodeWidth text
  match shape with
  | .circle =>
    let diameter := Coordinate.larger metrics.nodeHeight text
    (diameter, diameter)
  | .rhombus => (width * 1.25, metrics.nodeHeight * 1.5)
  | .rectangle | .rounded => (width, metrics.nodeHeight)

end Metrics

/-- A node with its size. -/
structure Sized (α : Type) where
  node : Node
  width : α
  height : α

namespace Sized

/-- The extent along the direction of the diagram. -/
def depth (direction : Direction) (sized : Sized α) : α :=
  if direction.isHorizontal then sized.width else sized.height

/-- The extent across the direction of the diagram. -/
def breadth (direction : Direction) (sized : Sized α) : α :=
  if direction.isHorizontal then sized.height else sized.width

end Sized

namespace Placement

/-- The nodes by rank, from rank zero on. -/
def rows (graph : Graph) (metrics : Metrics α) : List (List (Sized α)) :=
  let ranked := graph.nodes.zip (graph.ranks.map Prod.snd)
  let last := (ranked.map Prod.snd).foldl max 0
  (List.range (last + 1)).map fun rank =>
    (ranked.filter fun entry => entry.2 == rank).map fun (node, _) =>
      let size := metrics.nodeSize node.shape node.label
      ⟨node, size.1, size.2⟩

/-- The extent of a rank along the direction. -/
def rowDepth (direction : Direction) (row : List (Sized α)) : α :=
  Coordinate.maximum (row.map (Sized.depth direction))

/-- The extent of a rank across the direction, gaps included. -/
def rowBreadth (direction : Direction) (metrics : Metrics α) (row : List (Sized α)) : α :=
  Coordinate.total (row.map (Sized.breadth direction)) + metrics.nodeGap * ((row.length - 1 : Nat) : α)

/-- Where bands of the given depths start, one behind the other from a first start on. -/
def starts (gap start : α) : List α → List α
  | [] => []
  | depth :: depths => start :: starts gap (start + (depth + gap)) depths

/-- Where the ranks start along the direction; a reversed direction stacks the last rank first. -/
def rowStarts (direction : Direction) (metrics : Metrics α) (depths : List α) : List α :=
  if direction.isReversed then (starts metrics.rankGap metrics.padding depths.reverse).reverse
  else starts metrics.rankGap metrics.padding depths

/-- The boxes of the nodes of a rank, side by side from a given place on. -/
def placeRow (direction : Direction) (gap : α) (rank : Nat) (start depth : α) (order : Nat)
    (along : α) : List (Sized α) → List (ShapeBox α)
  | [] => []
  | sized :: rest =>
    let main := start + (depth - sized.depth direction) / 2.0
    let box : Box α :=
      if direction.isHorizontal then ⟨main, along, sized.width, sized.height⟩
      else ⟨along, main, sized.width, sized.height⟩
    ⟨sized.node.id, sized.node.shape, sized.node.label, rank, order, box⟩ ::
      placeRow direction gap rank start depth (order + 1)
        (along + (sized.breadth direction + gap)) rest

/-- The boxes of the given ranks, the first of which has the given number. -/
def placeRows (direction : Direction) (metrics : Metrics α) (widest : α) (rank : Nat) :
    List (List (Sized α) × α) → List (ShapeBox α)
  | [] => []
  | (row, start) :: rest =>
    let along := metrics.padding + (widest - rowBreadth direction metrics row) / 2.0
    placeRow direction metrics.nodeGap rank start (rowDepth direction row) 0 along row ++
      placeRows direction metrics widest (rank + 1) rest

/-- The boxes of all nodes, rank by rank. -/
def boxes (graph : Graph) (metrics : Metrics α) : List (ShapeBox α) :=
  let direction := graph.direction
  let rows := rows graph metrics
  let widest := Coordinate.maximum (rows.map (rowBreadth direction metrics))
  placeRows direction metrics widest 0
    (rows.zip (rowStarts direction metrics (rows.map (rowDepth direction))))

/-- The box of a node among those of a graph. -/
def find (boxes : List (ShapeBox α)) (id : String) : ShapeBox α :=
  (boxes.find? (·.id == id)).getD default

end Placement
end Flowchart
