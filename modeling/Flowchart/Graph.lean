import Flowchart.Shape

/-!
Graphs: what a diagram means once every mention of an id is resolved. Nodes stand in the order of their
first mention, edges and subgraphs in the order of the source.
-/
namespace Flowchart

/-- A node, which its id identifies. -/
structure Node where
  id : String
  label : String
  shape : Shape := .rectangle
  deriving DecidableEq, Repr, Inhabited

/-- An edge between the nodes of two ids. -/
structure Edge where
  source : String
  target : String
  label : Option String := none
  style : EdgeStyle := .solid
  head : Bool := true
  deriving DecidableEq, Repr, Inhabited

namespace Edge

/-- An edge from a node to itself. -/
def isLoop (edge : Edge) : Bool :=
  edge.source == edge.target

/-- Both edges join the same two nodes, whichever way they point. -/
def isParallel (edge other : Edge) : Bool :=
  (edge.source == other.source && edge.target == other.target) ||
    (edge.source == other.target && edge.target == other.source)

end Edge

/-- A group of nodes and of further groups. -/
structure Subgraph where
  id : String
  title : Option String := none
  members : List String := []
  children : List String := []
  deriving DecidableEq, Repr, Inhabited

/-- A whole graph; no two nodes have the same id. -/
structure Graph where
  direction : Direction := .TD
  nodes : List Node := []
  edges : List Edge := []
  subgraphs : List Subgraph := []
  deriving DecidableEq, Repr, Inhabited

namespace Graph

/-- The ids of the nodes, in order. -/
def ids (graph : Graph) : List String :=
  graph.nodes.map Node.id

/-- The edges that end at a node. -/
def incoming (graph : Graph) (id : String) : List Edge :=
  graph.edges.filter (·.target == id)

/-- The edges that start at a node. -/
def outgoing (graph : Graph) (id : String) : List Edge :=
  graph.edges.filter (·.source == id)

/-- The same graph with a node added at the end, or changed where its id already stands. -/
def put (graph : Graph) (node : Node) : Graph :=
  if graph.ids.contains node.id then
    { graph with nodes := graph.nodes.map fun old => if old.id == node.id then node else old }
  else { graph with nodes := graph.nodes ++ [node] }

/-- The first end of an edge that is no node. The start of an edge is looked at before its end. -/
def missingEnd? (graph : Graph) : Option String :=
  graph.edges.findSome? fun edge =>
    if !graph.ids.contains edge.source then some edge.source
    else if !graph.ids.contains edge.target then some edge.target
    else none

/-- Every edge joins two nodes of the graph. -/
def WellFormed (graph : Graph) : Prop :=
  graph.ids.Nodup ∧ ∀ edge ∈ graph.edges, edge.source ∈ graph.ids ∧ edge.target ∈ graph.ids

end Graph
end Flowchart
