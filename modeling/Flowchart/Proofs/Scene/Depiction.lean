import Flowchart.Proofs.Number.Rational
import Flowchart.Proofs.Scene.Clusters

/-!
A scene depicts its graph one to one: every node has a shape, in the seat that its rank and the nodes before it give
it, every edge has a connector, and every subgraph that holds a node has a cluster. A graph that describes a diagram has
such a scene unless it has no nodes.
-/
namespace Flowchart

variable {α : Type} [Coordinate α] {graph : Graph} {metrics : Metrics α} {scene : Scene α} {node : Node}
  {front back : List Node}

/-- The edge that a connector stands for. -/
def Connector.edge (connector : Connector α) : Edge :=
  ⟨connector.source, connector.target, connector.label, connector.style, connector.head⟩

open Classical in
/-- The scene shows all of the graph, and nothing else, in its order. -/
structure Scene.Depicts (scene : Scene α) (graph : Graph) : Prop where
  direction : scene.direction = graph.direction
  nodes : scene.shapes.map ShapeBox.node = graph.nodes
  ranks : scene.shapes.map (fun shape => (shape.id, shape.rank)) = graph.ranks
  orders : ∀ front shape back, scene.shapes = front ++ shape :: back →
    shape.order = front.countP fun earlier => earlier.rank == shape.rank
  edges : scene.connectors.map Connector.edge = graph.edges
  indices : scene.connectors.map Connector.index = (List.range graph.edges.length).map Int.ofNat
  clusters : scene.clusters.map Cluster.id =
    (graph.subgraphs.filter fun subgraph => graph.Populated subgraph.id).map Subgraph.id

namespace ShapeBox

/-- Moving a shape leaves its seat alone. -/
theorem rank_shift (dx dy : α) (shape : ShapeBox α) : (shape.shift dx dy).rank = shape.rank :=
  rfl

theorem order_shift (dx dy : α) (shape : ShapeBox α) : (shape.shift dx dy).order = shape.order :=
  rfl

theorem id_shift (dx dy : α) (shape : ShapeBox α) : (shape.shift dx dy).id = shape.id :=
  rfl

end ShapeBox

namespace Placement

variable {box : ShapeBox α} {row : List (Sized α)}

/-- A box of a row has its rank, and its order counts the nodes before it. -/
theorem seat_of_mem_placeRow {direction : Direction} {gap start depth along : α} {rank order : Nat}
    (mem : box ∈ placeRow direction gap rank start depth order along row) :
    box.rank = rank ∧ ∃ front sized back, row = front ++ sized :: back ∧ box.id = sized.node.id ∧
      box.order = order + front.length := by
  induction row generalizing order along with
  | nil => cases mem
  | cons first row ih =>
    rw [placeRow] at mem
    rcases List.mem_cons.1 mem with rfl | mem
    · exact ⟨rfl, [], first, row, rfl, rfl, rfl⟩
    · obtain ⟨isRank, front, sized, back, split, isId, isOrder⟩ := ih mem
      refine ⟨isRank, first :: front, sized, back, by rw [split, List.cons_append], isId, ?_⟩
      rw [isOrder, List.length_cons]
      omega

theorem seat_of_mem_placeRows {direction : Direction} {widest : α} {rank : Nat} {rows : List (List (Sized α) × α)}
    (mem : box ∈ placeRows direction metrics widest rank rows) :
    ∃ place row, (rows.map Prod.fst)[place]? = some row ∧ box.rank = rank + place ∧
      ∃ front sized back, row = front ++ sized :: back ∧ box.id = sized.node.id ∧ box.order = front.length := by
  induction rows generalizing rank with
  | nil => cases mem
  | cons first rows ih =>
    obtain ⟨row, start⟩ := first
    rw [placeRows] at mem
    rcases List.mem_append.1 mem with mem | mem
    · obtain ⟨isRank, front, sized, back, split, isId, isOrder⟩ := seat_of_mem_placeRow mem
      exact ⟨0, row, rfl, isRank, front, sized, back, split, isId, by rw [isOrder, Nat.zero_add]⟩
    · obtain ⟨place, row, isRow, isRank, seat⟩ := ih mem
      exact ⟨place + 1, row, isRow, by omega, seat⟩

/-- A box sits where its node stands among the nodes of its rank. -/
theorem seat_of_mem_boxes (mem : box ∈ boxes graph metrics) :
    ∃ front node back, graph.ofRank box.rank = front ++ node :: back ∧ box.id = node.id ∧
      box.order = front.length := by
  have sizes : (rows graph metrics).length =
      (rowStarts graph.direction metrics ((rows graph metrics).map (rowDepth graph.direction))).length := by
    rw [length_rowStarts, List.length_map]
  obtain ⟨place, row, isRow, isRank, front, sized, back, split, isId, isOrder⟩ := seat_of_mem_placeRows mem
  rw [List.map_fst_zip (Nat.le_of_eq sizes), rows_eq, List.getElem?_map] at isRow
  obtain ⟨rank, inRange, rfl⟩ := Option.map_eq_some_iff.1 isRow
  obtain rfl : place = rank := by simpa using (List.getElem?_eq_some_iff.1 inRange).2
  obtain ⟨before, after, nodes, rfl, isRest⟩ := List.map_eq_append_iff.1 split
  obtain ⟨node, rest, rfl, rfl, rfl⟩ := List.map_eq_cons_iff.1 isRest
  refine ⟨before, node, rest, ?_, isId, ?_⟩
  · rw [isRank, Nat.zero_add, nodes]
  · rw [isOrder, List.length_map]

/-- The box of a node has the rank of the node, and its order counts the earlier nodes of that rank. -/
theorem seat_find (metrics : Metrics α) (nodup : graph.ids.Nodup) (split : graph.nodes = front ++ node :: back) :
    (find (boxes graph metrics) node.id).rank = graph.rank node.id ∧
      (find (boxes graph metrics) node.id).order =
        front.countP fun earlier => graph.rank earlier.id == graph.rank node.id := by
  have isNode : node ∈ graph.nodes := by simp [split]
  have known : node.id ∈ (boxes graph metrics).map ShapeBox.id := mem_ids_boxes.2 (List.mem_map_of_mem isNode)
  obtain ⟨some, isSome, isId⟩ := List.mem_map.1 known
  cases found : (boxes graph metrics).find? (·.id == node.id) with
  | none => exact absurd (beq_iff_eq.2 isId) (List.find?_eq_none.1 found some isSome)
  | some box =>
    obtain ⟨before, other, after, ofRank, isOther, isOrder⟩ := seat_of_mem_boxes (List.mem_of_find?_eq_some found)
    have inRank : other ∈ graph.ofRank box.rank := by simp [ofRank]
    obtain ⟨listed, isRank⟩ := Graph.mem_ofRank.1 inRank
    have same : other.id = node.id := by
      rw [← isOther]
      simpa using List.find?_some found
    obtain rfl := (List.inj_on_of_nodup_map nodup listed isNode same).symm
    -- The node occurs once, so the nodes of its rank are split at it in one way.
    have once : node ∉ front ++ back := (List.nodup_cons.1 (List.nodup_middle.1 (split ▸ List.Nodup.of_map _ nodup))).1
    have halves : front.filter (fun earlier => graph.rank earlier.id == box.rank) = before := by
      rw [Graph.ofRank, split, List.filter_append, List.filter_cons_of_pos (by simpa using isRank)] at ofRank
      refine ((List.append_cons_inj_of_notMem ?_ ?_).1 ofRank).1
      · exact fun mem => once (List.mem_append_left _ (List.mem_filter.1 mem).1)
      · exact fun mem => once (List.mem_append_right _ (List.mem_filter.1 mem).1)
    rw [find, found, Option.getD_some, isOrder, isRank, ← halves, List.countP_eq_length_filter]
    exact ⟨rfl, rfl⟩

end Placement

namespace Connector

theorem edges_routeFrom (direction : Direction) (boxes : List (ShapeBox α)) (all earlier edges : List Edge) :
    (routeFrom direction boxes all earlier edges).map edge = edges := by
  induction edges generalizing earlier with
  | nil => rfl
  | cons first edges ih =>
    rw [routeFrom, List.map_cons, ih]
    rfl

/-- The edges are numbered on from those in front of them. -/
theorem indices_routeFrom (direction : Direction) (boxes : List (ShapeBox α)) (all earlier edges : List Edge) :
    (routeFrom direction boxes all earlier edges).map index =
      (List.range' earlier.length edges.length).map Int.ofNat := by
  induction edges generalizing earlier with
  | nil => rfl
  | cons first edges ih =>
    rw [routeFrom, List.map_cons, ih, List.length_cons, List.length_cons, List.range'_succ, List.map_cons]
    rfl

end Connector

namespace Scene

theorem error_ofGraph (wellFormed : graph.WellFormed) (grouped : graph.Grouped) (metrics : Metrics α)
    (error : LayoutError) : ofGraph graph metrics = .error error ↔ graph.nodes = [] ∧ error = .noNodes := by
  by_cases none : graph.nodes = []
  · rw [ofGraph, if_pos none, Except.error.injEq]
    exact ⟨fun same => ⟨none, same.symm⟩, fun failed => failed.2.symm⟩
  · obtain ⟨scene, laid⟩ := ofGraph_ok wellFormed grouped none metrics
    rw [laid]
    constructor
    · intro failed
      cases failed
    · intro failed
      exact absurd failed.1 none

open Classical in
theorem clusters_of_ofGraph (grouped : graph.Grouped) (laid : ofGraph graph metrics = .ok scene) :
    scene.clusters.map Cluster.id =
      (graph.subgraphs.filter fun subgraph => graph.Populated subgraph.id).map Subgraph.id := by
  obtain ⟨order, dx, dy, ordered, -, -, clusters⟩ := parts_of_ofGraph laid
  have placed := congrArg (List.map Prod.fst)
    (Cluster.clusters_ofGraph grouped metrics (Placement.boxes graph metrics) ordered)
  rw [List.map_map, List.map_map] at placed
  rw [clusters, List.map_map]
  exact placed

theorem orders_of_ofGraph (nodup : graph.ids.Nodup) (laid : ofGraph graph metrics = .ok scene)
    {front back : List (ShapeBox α)} {shape : ShapeBox α} (split : scene.shapes = front ++ shape :: back) :
    shape.order = front.countP fun earlier => earlier.rank == shape.rank := by
  obtain ⟨order, dx, dy, -, shapes, -⟩ := parts_of_ofGraph laid
  rw [split, Graph.ids, List.map_map] at shapes
  obtain ⟨before, rest, nodes, rfl, isRest⟩ := List.map_eq_append_iff.1 shapes.symm
  obtain ⟨node, after, rfl, rfl, rfl⟩ := List.map_eq_cons_iff.1 isRest
  have seat := Placement.seat_find metrics nodup nodes
  rw [List.countP_map, Function.comp_apply, ShapeBox.order_shift, ShapeBox.rank_shift, seat.1, seat.2]
  refine List.countP_congr ?_
  intro earlier mem
  obtain ⟨first, between, rfl⟩ := List.append_of_mem mem
  rw [List.append_assoc, List.cons_append] at nodes
  rw [Function.comp_apply, Function.comp_apply, ShapeBox.rank_shift, (Placement.seat_find metrics nodup nodes).1]

theorem ranks_of_ofGraph (nodup : graph.ids.Nodup) (laid : ofGraph graph metrics = .ok scene) :
    scene.shapes.map (fun shape => (shape.id, shape.rank)) = graph.ranks := by
  obtain ⟨order, dx, dy, -, shapes, -⟩ := parts_of_ofGraph laid
  rw [shapes, Graph.ranks, Graph.ids, List.map_map, List.map_map, List.map_map]
  refine List.map_congr_left ?_
  intro node mem
  obtain ⟨front, back, split⟩ := List.append_of_mem mem
  have isId : (Placement.find (Placement.boxes graph metrics) node.id).id = node.id :=
    congrArg Node.id (Placement.node_find nodup mem)
  simp only [Function.comp_apply, ShapeBox.id_shift, ShapeBox.rank_shift, isId,
    (Placement.seat_find metrics nodup split).1, Graph.rank]

theorem direction_of_ofGraph (laid : ofGraph graph metrics = .ok scene) : scene.direction = graph.direction := by
  rw [ofGraph] at laid
  split at laid
  · cases laid
  · split at laid
    · cases laid
    · obtain ⟨order, -, result⟩ := ok_of_bind laid
      cases result
      rfl

theorem depicts_of_ofGraph (nodup : graph.ids.Nodup) (grouped : graph.Grouped)
    (laid : ofGraph graph metrics = .ok scene) : scene.Depicts graph := by
  obtain ⟨order, dx, dy, -, -, connectors, -⟩ := parts_of_ofGraph laid
  constructor
  · exact direction_of_ofGraph laid
  · exact nodes_of_ofGraph nodup laid
  · exact ranks_of_ofGraph nodup laid
  · exact fun front shape back split => orders_of_ofGraph nodup laid split
  · rw [connectors, List.map_map]
    exact Connector.edges_routeFrom _ _ _ _ _
  · rw [connectors, List.map_map, List.range_eq_range']
    exact Connector.indices_routeFrom _ _ _ _ _
  · exact clusters_of_ofGraph grouped laid

/-- The layout of a graph that describes a diagram fails just for want of nodes, and else depicts it. -/
theorem depicted_ofDiagram {diagram : Diagram} (built : Graph.ofDiagram diagram = .ok graph) (metrics : Metrics α) :
    (∀ error, ofGraph graph metrics = .error error ↔ graph.nodes = [] ∧ error = .noNodes) ∧
      (graph.nodes ≠ [] →
        Layout.Complete graph metrics ∧ ∃ scene, ofGraph graph metrics = .ok scene ∧ scene.Depicts graph) := by
  have wellFormed := Graph.wellFormed_ofDiagram built
  have grouped := Graph.grouped_ofDiagram built
  refine ⟨error_ofGraph wellFormed grouped metrics, fun some => ⟨Layout.complete wellFormed grouped some metrics, ?_⟩⟩
  obtain ⟨scene, laid⟩ := ofGraph_ok wellFormed grouped some metrics
  exact ⟨scene, laid, depicts_of_ofGraph wellFormed.1 grouped laid⟩

/-- Two nodes on a cycle and a third in a block of a block, beside a block without nodes. -/
theorem depicted_ofDiagram_nested :
    ∃ diagram graph, diagram.statements =
        [.chain [⟨"A", none, none, default⟩, ⟨"B", none, none, default⟩, ⟨"A", none, none, default⟩]
            [⟨.solid, true, none, default⟩, ⟨.thick, false, some "back", default⟩] default,
          .subgraph "s" none
            [.subgraph "t" none [.node ⟨"C", none, none, default⟩ default] default] default,
          .subgraph "u" none [] default] ∧
      graph = ⟨.TD, [⟨"A", "A", .rectangle⟩, ⟨"B", "B", .rectangle⟩, ⟨"C", "C", .rectangle⟩],
        [⟨"A", "B", none, .solid, true⟩, ⟨"B", "A", some "back", .thick, false⟩],
        [⟨"s", none, [], ["t"]⟩, ⟨"t", none, ["C"], []⟩, ⟨"u", none, [], []⟩]⟩ ∧
      Graph.ofDiagram diagram = .ok graph ∧
      (∀ error, ofGraph graph (Metrics.standard : Metrics Rat) = .error error ↔
        graph.nodes = [] ∧ error = .noNodes) ∧
      (graph.nodes ≠ [] → Layout.Complete graph (Metrics.standard : Metrics Rat) ∧
        ∃ scene, ofGraph graph (Metrics.standard : Metrics Rat) = .ok scene ∧ scene.Depicts graph) := by
  refine ⟨⟨.TD, default, _⟩, _, rfl, rfl, ?_⟩
  exact (and_iff_left_of_imp fun built => depicted_ofDiagram built Metrics.standard).2 rfl

end Scene
end Flowchart
