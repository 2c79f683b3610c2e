import Flowchart.Graph

/-!
Warnings about graphs that can be drawn but are probably not meant: nodes that nothing is joined to,
edges drawn twice, subgraphs without members, and cycles.
-/
namespace Flowchart

/-- Something legal but suspicious. -/
inductive Warning where
  | isolated (id : String)
  | duplicateEdge (source target : String)
  | emptySubgraph (id : String)
  | cycle (path : List String)
  deriving DecidableEq, Repr

namespace Warning

def message : Warning → String
  | isolated id => s!"Node '{id}' is not connected to any other node (isolated)."
  | duplicateEdge source target => s!"Duplicate edge '{source}' -> '{target}'."
  | emptySubgraph id => s!"Subgraph '{id}' is empty and will not be drawn."
  | cycle path => "Cycle detected: " ++ " -> ".intercalate path ++ "."

end Warning

namespace Graph

/-- Nodes that no edge touches, in a graph that has edges. -/
def isolatedWarnings (graph : Graph) : List Warning :=
  if graph.edges = [] then []
  else
    let touched := graph.edges.flatMap fun edge => [edge.source, edge.target]
    (graph.ids.filter fun id => !touched.contains id).map .isolated

/-- Edges that repeat the ends, the label and the style of an earlier one. -/
def duplicateWarnings (earlier : List Edge) : List Edge → List Warning
  | [] => []
  | edge :: rest =>
    let repeats := earlier.any fun other =>
      other.source == edge.source && other.target == edge.target && other.label == edge.label &&
        other.style == edge.style
    (if repeats then [.duplicateEdge edge.source edge.target] else []) ++
      duplicateWarnings (edge :: earlier) rest

/-- Subgraphs that hold neither nodes nor subgraphs of their own. -/
def emptyWarnings (graph : Graph) : List Warning :=
  (graph.subgraphs.filter fun subgraph => subgraph.members = [] && subgraph.children = []).map
    fun subgraph => .emptySubgraph subgraph.id

/-- The ends of the edges that leave a node for another one. -/
def successors (graph : Graph) (id : String) : List String :=
  (graph.edges.filter fun edge => edge.source == id && !edge.isLoop).map Edge.target

/-- A step on the current path of a search: a node, and the successors still to be tried. -/
abbrev Step := String × List String

/-- What a search finds: a cycle, or the nodes that it never came to. -/
inductive Search where
  | cycle (path : List String)
  | unseen (ids : List String)
  deriving DecidableEq, Repr

/-- Searches in depth along a path, whose last step comes first. A successor on the path closes a
cycle; one that was never seen continues the path. -/
def searchPath (graph : Graph) (unseen : List String) (path : List Step) : Search :=
  match path with
  | [] => .unseen unseen
  | (_, []) :: rest => searchPath graph unseen rest
  | (id, next :: others) :: rest =>
    let ids := id :: rest.map Prod.fst
    if ids.contains next then
      .cycle (next :: (ids.takeWhile (· ≠ next)).reverse ++ [next])
    else if _unseen : next ∈ unseen then
      searchPath graph (unseen.erase next) ((next, graph.successors next) :: (id, others) :: rest)
    else searchPath graph unseen ((id, others) :: rest)
termination_by (unseen.length, (path.flatMap Prod.snd).length + path.length)
decreasing_by
  · exact Prod.Lex.right _ (by simp)
  · exact Prod.Lex.left _ _ (by
      have := List.length_pos_of_mem _unseen
      rw [List.length_erase_of_mem _unseen]
      omega)
  · exact Prod.Lex.right _ (by simp)

/-- Searches from each of the nodes in turn. -/
def searchFrom (graph : Graph) (unseen : List String) : List String → Option (List String)
  | [] => none
  | id :: rest =>
    if unseen.contains id then
      match graph.searchPath (unseen.erase id) [(id, graph.successors id)] with
      | .cycle path => some path
      | .unseen ids => searchFrom graph ids rest
    else searchFrom graph unseen rest

/-- A path along edges between different nodes that ends where it starts. -/
def cycle? (graph : Graph) : Option (List String) :=
  graph.searchFrom (graph.ids ++ graph.edges.map Edge.target).eraseDups graph.ids

/-- All warnings about a graph, those of one kind together. -/
def warnings (graph : Graph) : List Warning :=
  graph.isolatedWarnings ++ duplicateWarnings [] graph.edges ++ graph.emptyWarnings ++
    (graph.cycle?.map Warning.cycle).toList

/-- The first start of an edge to another node that is no node itself. Warnings are about graphs that
have none. -/
def missingStart? (graph : Graph) : Option String :=
  (graph.edges.find? fun edge => !edge.isLoop && !graph.ids.contains edge.source).map Edge.source

end Graph
end Flowchart
