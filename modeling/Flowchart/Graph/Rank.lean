import Flowchart.Graph

/-!
Ranks: how many edges a node lies behind the nodes that nothing leads to. Ranks spread in waves, each
of which takes up the unranked nodes that an edge reaches from the wave before. Where only cycles are
left, the earliest of their nodes starts anew at rank zero.
-/
namespace Flowchart.Graph

/-- The ends of the edges that start at one of the nodes. -/
def targetsOf (graph : Graph) (sources : List String) : List String :=
  (graph.edges.filter fun edge => sources.contains edge.source).map Edge.target

def among (targets ids : List String) : List String :=
  ids.filter fun id => targets.contains id

def outside (targets ids : List String) : List String :=
  ids.filter fun id => !targets.contains id

theorem length_outside_lt {targets ids : List String} (some : among targets ids ≠ []) :
    (outside targets ids).length < ids.length := by
  obtain ⟨id, mem⟩ := List.exists_mem_of_ne_nil _ some
  have := List.mem_filter.1 mem
  exact List.length_filter_lt_length_iff_exists.2 ⟨id, this.1, by simpa using this.2⟩

/-- Ranks the nodes that can be reached from a wave of a given rank through unranked nodes. -/
def spread (graph : Graph) (rank : Nat) (wave unranked : List String) : List (String × Nat) :=
  let targets := graph.targetsOf wave
  let next := among targets unranked
  if _none : next = [] then []
  else next.map (·, rank + 1) ++ spread graph (rank + 1) next (outside targets unranked)
termination_by unranked.length
decreasing_by exact length_outside_lt _none

/-- The nodes that have no rank yet. -/
def without (ranked : List (String × Nat)) (ids : List String) : List String :=
  ids.filter fun id => !(ranked.map Prod.fst).contains id

/-- Ranks nodes that no ranked node leads to: the first of them starts a spread of its own. -/
def rankCycles (graph : Graph) (unranked : List String) : List (String × Nat) :=
  match unranked with
  | [] => []
  | id :: rest =>
    let reached := graph.spread 0 [id] rest
    (id, 0) :: reached ++ rankCycles graph (without reached rest)
termination_by unranked.length
decreasing_by
  exact Nat.lt_succ_of_le (List.length_filter_le _ _)

/-- The nodes that no edge from another node leads to. -/
def sources (graph : Graph) : List String :=
  graph.ids.filter fun id => !graph.edges.any fun edge => edge.target == id && !edge.isLoop

/-- The ranks in the order in which they are found. -/
def rankOrder (graph : Graph) : List (String × Nat) :=
  let roots := graph.sources.map (·, 0)
  let unranked := without roots graph.ids
  let reached := graph.spread 0 graph.sources unranked
  roots ++ reached ++ graph.rankCycles (without reached unranked)

/-- The rank of a node, or zero for an id that is no node. -/
def rank (graph : Graph) (id : String) : Nat :=
  (graph.rankOrder.lookup id).getD 0

/-- Every node with its rank, in the order of the nodes. -/
def ranks (graph : Graph) : List (String × Nat) :=
  let order := graph.rankOrder
  graph.ids.map fun id => (id, (order.lookup id).getD 0)

end Flowchart.Graph
