import Flowchart.Proofs.Graph.Ranks
import Flowchart.Scene.Placement

/-!
The rows of a layout. Each holds the nodes of one rank in the order of the graph, none of them is empty,
and the boxes are those of the rows, one row behind the other.
-/
namespace Flowchart

variable {α : Type} [Coordinate α] {graph : Graph} {metrics : Metrics α} {id : String} {rank : Nat}

def Metrics.sized (metrics : Metrics α) (node : Node) : Sized α :=
  let size := metrics.nodeSize node.shape node.label
  ⟨node, size.1, size.2⟩

namespace Graph

def lastRank (graph : Graph) : Nat :=
  (graph.nodes.map fun node => graph.rank node.id).foldl max 0

/-- The nodes of a rank, in the order of the graph. -/
def ofRank (graph : Graph) (rank : Nat) : List Node :=
  graph.nodes.filter fun node => graph.rank node.id == rank

theorem mem_ofRank {node : Node} : node ∈ graph.ofRank rank ↔ node ∈ graph.nodes ∧ graph.rank node.id = rank := by
  rw [ofRank, List.mem_filter, beq_iff_eq]

theorem le_foldl_max (ranks : List Nat) (start : Nat) :
    start ≤ ranks.foldl max start ∧ ∀ rank ∈ ranks, rank ≤ ranks.foldl max start := by
  induction ranks generalizing start with
  | nil => exact ⟨Nat.le_refl _, nofun⟩
  | cons first ranks ih =>
    obtain ⟨bound, rest⟩ := ih (max start first)
    rw [List.foldl_cons]
    refine ⟨by omega, ?_⟩
    intro rank mem
    rcases List.mem_cons.1 mem with rfl | mem
    · omega
    · exact rest rank mem

theorem foldl_max_mem (ranks : List Nat) (start : Nat) :
    ranks.foldl max start = start ∨ ranks.foldl max start ∈ ranks := by
  induction ranks generalizing start with
  | nil => exact .inl rfl
  | cons first ranks ih =>
    rw [List.foldl_cons]
    rcases ih (max start first) with same | mem
    · by_cases larger : start ≤ first
      · rw [same, Nat.max_eq_right larger]
        exact .inr List.mem_cons_self
      · rw [same, Nat.max_eq_left (by omega)]
        exact .inl rfl
    · exact .inr (List.mem_cons_of_mem _ mem)

theorem rank_le_lastRank (mem : id ∈ graph.ids) : graph.rank id ≤ graph.lastRank := by
  obtain ⟨node, isNode, rfl⟩ := List.mem_map.1 mem
  exact (le_foldl_max _ 0).2 _ (List.mem_map.2 ⟨node, isNode, rfl⟩)

/-- Every rank up to the last one is the rank of some node. -/
theorem ofRank_ne_nil (nodup : graph.ids.Nodup) (some : graph.nodes ≠ []) (bound : rank ≤ graph.lastRank) :
    graph.ofRank rank ≠ [] := by
  have reached : ∃ id ∈ graph.ids, rank ≤ graph.rank id := by
    rcases foldl_max_mem (graph.nodes.map fun node => graph.rank node.id) 0 with zero | mem
    · obtain ⟨node, isNode⟩ := List.exists_mem_of_ne_nil _ some
      refine ⟨node.id, List.mem_map.2 ⟨node, isNode, rfl⟩, ?_⟩
      rw [lastRank, zero] at bound
      omega
    · obtain ⟨node, isNode, last⟩ := List.mem_map.1 mem
      refine ⟨node.id, List.mem_map.2 ⟨node, isNode, rfl⟩, ?_⟩
      rw [last]
      exact bound
  obtain ⟨id, mem, below⟩ := reached
  have taken : ∃ other ∈ graph.ids, graph.rank other = rank := by
    rcases Nat.lt_or_eq_of_le below with below | same
    · exact exists_rank nodup mem below
    · exact ⟨id, mem, same.symm⟩
  obtain ⟨other, isId, isRank⟩ := taken
  obtain ⟨node, isNode, rfl⟩ := List.mem_map.1 isId
  exact List.ne_nil_of_mem (mem_ofRank.2 ⟨isNode, isRank⟩)

end Graph

namespace Placement

theorem rows_eq (graph : Graph) (metrics : Metrics α) :
    rows graph metrics =
      (List.range (graph.lastRank + 1)).map fun rank => (graph.ofRank rank).map metrics.sized := by
  have ranked : graph.nodes.zip (graph.ranks.map Prod.snd) =
      graph.nodes.map fun node => (node, graph.rank node.id) := by
    have ranks : graph.ranks.map Prod.snd = graph.nodes.map fun node => graph.rank node.id := by
      simp [Graph.ranks, Graph.ids, Graph.rank]
    rw [ranks]
    exact List.map_prod_left_eq_zip.symm
  have last : ((graph.nodes.map fun node => (node, graph.rank node.id)).map Prod.snd).foldl max 0 =
      graph.lastRank := by
    rw [List.map_map]
    rfl
  rw [rows, ranked]
  simp only [last]
  refine List.map_congr_left ?_
  intro rank _
  rw [List.filter_map, List.map_map]
  rfl

theorem rows_ne_nil (nodup : graph.ids.Nodup) (some : graph.nodes ≠ []) {row : List (Sized α)}
    (mem : row ∈ rows graph metrics) : row ≠ [] := by
  rw [rows_eq] at mem
  obtain ⟨rank, inRange, rfl⟩ := List.mem_map.1 mem
  have bound : rank ≤ graph.lastRank := Nat.le_of_lt_succ (List.mem_range.1 inRange)
  rw [Ne, List.map_eq_nil_iff]
  exact Graph.ofRank_ne_nil nodup some bound

theorem length_starts (gap start : α) (depths : List α) :
    (starts gap start depths).length = depths.length := by
  induction depths generalizing start with
  | nil => rfl
  | cons depth depths ih => rw [starts, List.length_cons, ih, List.length_cons]

theorem length_rowStarts (direction : Direction) (metrics : Metrics α) (depths : List α) :
    (rowStarts direction metrics depths).length = depths.length := by
  rw [rowStarts]
  split
  · rw [List.length_reverse, length_starts, List.length_reverse]
  · exact length_starts _ _ _

theorem ids_placeRow (direction : Direction) (gap : α) (rank : Nat) (start depth : α) (order : Nat)
    (along : α) (row : List (Sized α)) :
    (placeRow direction gap rank start depth order along row).map ShapeBox.id = row.map (·.node.id) := by
  induction row generalizing order along with
  | nil => rfl
  | cons sized row ih => rw [placeRow, List.map_cons, ih, List.map_cons]

theorem ids_placeRows (direction : Direction) (metrics : Metrics α) (widest : α) (rank : Nat)
    (rows : List (List (Sized α) × α)) :
    (placeRows direction metrics widest rank rows).map ShapeBox.id =
      (rows.map Prod.fst).flatMap fun row => row.map (·.node.id) := by
  induction rows generalizing rank with
  | nil => rfl
  | cons row rows ih => rw [placeRows, List.map_append, ids_placeRow, ih, List.map_cons, List.flatMap_cons]

theorem ids_boxes (graph : Graph) (metrics : Metrics α) :
    (boxes graph metrics).map ShapeBox.id = (rows graph metrics).flatMap fun row => row.map (·.node.id) := by
  have sizes : (rows graph metrics).length =
      (rowStarts graph.direction metrics ((rows graph metrics).map (rowDepth graph.direction))).length := by
    rw [length_rowStarts, List.length_map]
  rw [boxes, ids_placeRows, List.map_fst_zip (Nat.le_of_eq sizes)]

/-- Just the nodes have boxes. -/
theorem mem_ids_boxes : id ∈ (boxes graph metrics).map ShapeBox.id ↔ id ∈ graph.ids := by
  rw [ids_boxes, rows_eq, List.mem_flatMap]
  constructor
  · rintro ⟨row, isRow, mem⟩
    obtain ⟨rank, -, rfl⟩ := List.mem_map.1 isRow
    rw [List.map_map] at mem
    obtain ⟨node, inRow, rfl⟩ := List.mem_map.1 mem
    exact List.mem_map.2 ⟨node, (Graph.mem_ofRank.1 inRow).1, rfl⟩
  · intro mem
    have bound := Graph.rank_le_lastRank mem
    obtain ⟨node, isNode, rfl⟩ := List.mem_map.1 mem
    refine ⟨_, List.mem_map.2 ⟨graph.rank node.id, List.mem_range.2 (Nat.lt_succ_of_le bound), rfl⟩, ?_⟩
    rw [List.map_map]
    exact List.mem_map.2 ⟨node, Graph.mem_ofRank.2 ⟨isNode, rfl⟩, rfl⟩

end Placement
end Flowchart
