import Flowchart.Scene.Placement

/-!
Routes of the edges. An edge leaves and enters in the middle of facing sides. Of several edges between
the same two nodes, all but a middle one bend aside, a fixed distance from one another; the loops of a
node reach out further and further.
-/
namespace Flowchart

/-- The sides that edges use: two along the direction and two across it. -/
structure Sides where
  exit : Side
  entry : Side
  before : Side
  after : Side
  deriving DecidableEq, Repr

namespace Direction

/-- The sides that face the next and the previous rank, and the previous and the next node of a rank. -/
def sides : Direction → Sides
  | TD | TB => ⟨.bottom, .top, .left, .right⟩
  | BT => ⟨.top, .bottom, .left, .right⟩
  | LR => ⟨.right, .left, .top, .bottom⟩
  | RL => ⟨.left, .right, .top, .bottom⟩

end Direction

namespace Connector

variable {α : Type} [Coordinate α]

def parallelGap : α := 16.0

/-- How far the first loop of a node reaches out. -/
def loopReach : α := 24.0

/-- The ends of an edge between different nodes, in the middle of the sides that face each other. -/
def ends (direction : Direction) (source target : ShapeBox α) : Point α × Point α :=
  let sides := direction.sides
  if source.rank < target.rank then (source.box.middle sides.exit, target.box.middle sides.entry)
  else if target.rank < source.rank then
    (source.box.middle sides.entry, target.box.middle sides.exit)
  else if source.order < target.order then
    (source.box.middle sides.after, target.box.middle sides.before)
  else (source.box.middle sides.before, target.box.middle sides.after)

/-- The polyline of an edge between different nodes, the edge of a given number among parallel ones. -/
def straight (direction : Direction) (source target : ShapeBox α) (slot count : Nat) :
    List (Point α) :=
  let (start, stop) := ends direction source target
  if 2 * slot + 1 = count then [start, stop]
  else
    let offset : α := ((slot : α) - ((count - 1 : Nat) : α) / 2.0) * parallelGap
    let middle := start.midpoint stop
    let bend : Point α :=
      if Coordinate.magnitude (stop.y - start.y) ≤ Coordinate.magnitude (stop.x - start.x) then
        ⟨middle.x, middle.y + offset⟩
      else ⟨middle.x + offset, middle.y⟩
    [start, bend, stop]

/-- The polyline of a loop, the one of a given number at its node. It sits on the side that faces the
next node of the rank. -/
def loop (direction : Direction) (box : Box α) (slot : Nat) : List (Point α) :=
  let reach : α := loopReach * ((slot + 1 : Nat) : α)
  if direction.isHorizontal then
    let left := box.x + box.width / 4.0
    let right := box.x + 3.0 * box.width / 4.0
    [⟨left, box.bottom⟩, ⟨left, box.bottom + reach⟩, ⟨right, box.bottom + reach⟩, ⟨right, box.bottom⟩]
  else
    let top := box.y + box.height / 4.0
    let bottom := box.y + 3.0 * box.height / 4.0
    [⟨box.right, top⟩, ⟨box.right + reach, top⟩, ⟨box.right + reach, bottom⟩, ⟨box.right, bottom⟩]

/-- Where the label of a polyline is centred: at the bend, halfway along the outer side of a loop, or
halfway between the ends. -/
def labelPoint : List (Point α) → Point α
  | [_, bend, _] => bend
  | [_, a, b, _] => a.midpoint b
  | start :: rest => start.midpoint (rest.getLastD start)
  | [] => default

/-- The route of an edge. `earlier` counts the parallel edges in front of it and `count` all of them,
the edge itself included. -/
def route (direction : Direction) (boxes : List (ShapeBox α)) (index : Int) (earlier count : Nat)
    (edge : Edge) : Connector α :=
  let source := Placement.find boxes edge.source
  let target := Placement.find boxes edge.target
  let points :=
    if edge.isLoop then loop direction source.box earlier
    else straight direction source target earlier count
  { index, source := edge.source, target := edge.target, points, style := edge.style, head := edge.head
    label := edge.label
    labelAt := if edge.label.getD "" = "" then none else some (labelPoint points) }

/-- The routes of edges, given the edges in front of them, the latest first, and all edges. -/
def routeFrom (direction : Direction) (boxes : List (ShapeBox α)) (all earlier : List Edge) :
    List Edge → List (Connector α)
  | [] => []
  | edge :: rest =>
    route direction boxes (earlier.length : Nat) (earlier.countP edge.isParallel) (all.countP edge.isParallel)
      edge :: routeFrom direction boxes all (edge :: earlier) rest

/-- The routes of all edges of a graph. -/
def ofGraph (graph : Graph) (boxes : List (ShapeBox α)) : List (Connector α) :=
  routeFrom graph.direction boxes graph.edges [] graph.edges

end Connector
end Flowchart
