import Flowchart.Scene.Placement

/-!
Frames of the subgraphs. A frame surrounds the boxes of its own nodes and the frames of its children
with a margin, and a band above them for the title; a subgraph without any of them has no frame. The
subgraphs are visited children first, so that one pass computes every frame.
-/
namespace Flowchart

/-- Why a graph cannot be laid out. Graphs that describe a diagram fail only for want of nodes. -/
inductive LayoutError where
  | noNodes
  | unknownId (id : String)
  | endlessNesting
  deriving DecidableEq, Repr

namespace LayoutError

def message : LayoutError → String
  | noNodes => "Diagram has no nodes to lay out"
  | unknownId id => s!"No node or subgraph has the id '{id}'"
  | endlessNesting => "A subgraph contains itself"

end LayoutError

namespace Graph

/-- The subgraph of an id; the last one, if several have it. -/
def subgraph? (graph : Graph) (id : String) : Option Subgraph :=
  graph.subgraphs.reverse.find? (·.id == id)

/-- Adds a subgraph behind the ones visited before, and its children in front of it. The nesting may be
as deep as the fuel says. -/
def visit (graph : Graph) (fuel : Nat) (visited : List Subgraph) (subgraph : Subgraph) :
    Except LayoutError (List Subgraph) :=
  if visited.any (·.id == subgraph.id) then .ok visited
  else match fuel with
    | 0 => .error .endlessNesting
    | fuel + 1 =>
      match subgraph.members.find? fun id => !graph.ids.contains id with
      | some id => .error (.unknownId id)
      | none => do
        let visited ← subgraph.children.foldlM
          (fun visited id =>
            match graph.subgraph? id with
            | none => .error (.unknownId id)
            | some child => visit graph fuel visited child)
          visited
        return visited ++ [subgraph]

def nestingOrder (graph : Graph) : Except LayoutError (List Subgraph) :=
  graph.subgraphs.foldlM (graph.visit (graph.subgraphs.length + 1)) []

end Graph

namespace Cluster

variable {α : Type} [Coordinate α]

/-- The frame around the given boxes, if there are any. -/
def frame? (metrics : Metrics α) : List (Box α) → Option (Box α)
  | [] => none
  | boxes =>
    let margin := metrics.padding / 2.0
    let left := Coordinate.minimum (boxes.map Box.x) - margin
    let top := Coordinate.minimum (boxes.map Box.y) - margin - metrics.lineHeight
    let right := Coordinate.maximum (boxes.map Box.right) + margin
    let bottom := Coordinate.maximum (boxes.map Box.bottom) + margin
    some ⟨left, top, right - left, bottom - top⟩

/-- The frames computed so far, by id. -/
abbrev Frames (α : Type) := List (String × Option (Box α))

/-- Adds the frame of a subgraph whose children have theirs. -/
def addFrame (metrics : Metrics α) (boxes : List (ShapeBox α)) (frames : Frames α)
    (subgraph : Subgraph) : Frames α :=
  let own := subgraph.members.map fun id => (Placement.find boxes id).box
  let inner := subgraph.children.filterMap fun id => (frames.lookup id).join
  frames ++ [(subgraph.id, frame? metrics (own ++ inner))]

/-- What a frame is titled: the id unless there is a title that is not empty. -/
def titleOf (subgraph : Subgraph) : String :=
  match subgraph.title with
  | some title => if title = "" then subgraph.id else title
  | none => subgraph.id

/-- The clusters of a graph, in the order of its subgraphs. `order` lists these children first. -/
def ofGraph (graph : Graph) (metrics : Metrics α) (boxes : List (ShapeBox α))
    (order : List Subgraph) : List (Cluster α) :=
  let frames := order.foldl (addFrame metrics boxes) []
  graph.subgraphs.filterMap fun subgraph =>
    ((frames.lookup subgraph.id).join).map fun box =>
      let visited := (order.find? (·.id == subgraph.id)).getD subgraph
      ⟨subgraph.id, titleOf visited, box⟩

end Cluster
end Flowchart
