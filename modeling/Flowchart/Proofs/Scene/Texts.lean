import Flowchart.Proofs.Scene.Completeness
import Flowchart.Scene.Drawing
import Mathlib.Data.List.Nodup

/-!
What a scene shows of its graph: every node with its id, shape and label, every edge with its label, and the subgraphs
that have a frame with their titles.
-/
namespace Flowchart

variable {α : Type} [Coordinate α] {graph : Graph} {metrics : Metrics α} {scene : Scene α}

theorem ok_of_bind {β γ ε : Type} {first : Except ε β} {next : β → Except ε γ} {c : γ}
    (h : (first >>= next) = .ok c) : ∃ b, first = .ok b ∧ next b = .ok c := by
  cases first with
  | error error => cases h
  | ok b => exact ⟨b, rfl, h⟩

/-- What each step of a loop keeps holds at its end. -/
theorem foldlM_keeps {β γ ε : Type} {P : γ → Prop} {step : γ → β → Except ε γ} {items : List β}
    (keeps : ∀ item ∈ items, ∀ state next, P state → step state item = .ok next → P next) {state final : γ}
    (start : P state) (run : items.foldlM step state = .ok final) : P final := by
  induction items generalizing state with
  | nil =>
    cases run
    exact start
  | cons item items ih =>
    rw [List.foldlM_cons] at run
    obtain ⟨next, taken, run⟩ := ok_of_bind run
    have kept := keeps item List.mem_cons_self state next start taken
    exact ih (fun other mem => keeps other (List.mem_cons_of_mem _ mem)) kept run

/-- The node that a shape stands for. -/
def ShapeBox.node (shape : ShapeBox α) : Node :=
  ⟨shape.id, shape.label, shape.shape⟩

namespace Placement

theorem nodes_placeRow (direction : Direction) (gap : α) (rank : Nat) (start depth : α) (order : Nat) (along : α)
    (row : List (Sized α)) :
    (placeRow direction gap rank start depth order along row).map ShapeBox.node = row.map Sized.node := by
  induction row generalizing order along with
  | nil => rfl
  | cons sized row ih =>
    rw [placeRow, List.map_cons, ih, List.map_cons]
    rfl

theorem nodes_placeRows (direction : Direction) (metrics : Metrics α) (widest : α) (rank : Nat)
    (rows : List (List (Sized α) × α)) : (placeRows direction metrics widest rank rows).map ShapeBox.node =
      (rows.map Prod.fst).flatMap fun row => row.map Sized.node := by
  induction rows generalizing rank with
  | nil => rfl
  | cons row rows ih => rw [placeRows, List.map_append, nodes_placeRow, ih, List.map_cons, List.flatMap_cons]

/-- A box stands for a node of the graph. -/
theorem node_mem_of_mem_boxes {box : ShapeBox α} (mem : box ∈ boxes graph metrics) : box.node ∈ graph.nodes := by
  have sizes : (rows graph metrics).length =
      (rowStarts graph.direction metrics ((rows graph metrics).map (rowDepth graph.direction))).length := by
    rw [length_rowStarts, List.length_map]
  have placed : box.node ∈ (boxes graph metrics).map ShapeBox.node := List.mem_map_of_mem mem
  rw [boxes, nodes_placeRows, List.map_fst_zip (Nat.le_of_eq sizes), rows_eq] at placed
  obtain ⟨row, isRow, inRow⟩ := List.mem_flatMap.1 placed
  obtain ⟨rank, -, rfl⟩ := List.mem_map.1 isRow
  rw [List.map_map] at inRow
  obtain ⟨node, isNode, same⟩ := List.mem_map.1 inRow
  exact same ▸ (Graph.mem_ofRank.1 isNode).1

/-- The box that is found for the id of a node stands for this node. -/
theorem node_find (nodup : graph.ids.Nodup) {node : Node} (mem : node ∈ graph.nodes) :
    (find (boxes graph metrics) node.id).node = node := by
  have known : node.id ∈ (boxes graph metrics).map ShapeBox.id := mem_ids_boxes.2 (List.mem_map_of_mem mem)
  obtain ⟨some, isSome, isId⟩ := List.mem_map.1 known
  cases found : (boxes graph metrics).find? (·.id == node.id) with
  | none => exact absurd (beq_iff_eq.2 isId) (List.find?_eq_none.1 found some isSome)
  | some box =>
    have same := List.find?_some found
    have isNode := node_mem_of_mem_boxes (List.mem_of_find?_eq_some found)
    rw [find, found]
    exact List.inj_on_of_nodup_map nodup isNode mem (beq_iff_eq.1 same)

end Placement

namespace Connector

/-- A label is shown unless it is empty. -/
theorem text_of_caption? {direction : Direction} {boxes : List (ShapeBox α)} {index : Int} {earlier count : Nat}
    {edge : Edge} (dx dy : α) :
    ((route direction boxes index earlier count edge).shift dx dy).caption?.map Caption.text =
      edge.label.filter (· ≠ "") := by
  cases isLabel : edge.label with
  | none => simp [route, shift, caption?, isLabel]
  | some label => by_cases empty : label = "" <;> simp [route, shift, caption?, isLabel, empty, Option.filter]

theorem texts_routeFrom (direction : Direction) (boxes : List (ShapeBox α)) (all earlier edges : List Edge)
    (dx dy : α) : (((routeFrom direction boxes all earlier edges).map (shift dx dy)).filterMap caption?).map
      Caption.text = edges.filterMap fun edge => edge.label.filter (· ≠ "") := by
  induction edges generalizing earlier with
  | nil => rfl
  | cons edge edges ih =>
    simp only [List.map_filterMap] at ih ⊢
    simp only [routeFrom, List.map_cons, List.filterMap_cons, ih, text_of_caption?]

end Connector

namespace Graph

/-- A visit adds subgraphs of the graph only. -/
theorem subset_of_visit (fuel : Nat) {visited next : List Subgraph} {subgraph : Subgraph}
    (mem : subgraph ∈ graph.subgraphs) (known : visited ⊆ graph.subgraphs)
    (visits : graph.visit fuel visited subgraph = .ok next) : next ⊆ graph.subgraphs := by
  induction fuel generalizing visited next subgraph with
  | zero =>
    rw [visit] at visits
    split at visits
    · cases visits
      exact known
    · cases visits
  | succ fuel ih =>
    rw [visit] at visits
    split at visits
    · cases visits
      exact known
    · split at visits
      · cases visits
      · obtain ⟨before, folded, result⟩ := ok_of_bind visits
        cases result
        refine List.append_subset.2 ⟨?_, List.cons_subset.2 ⟨mem, List.nil_subset _⟩⟩
        refine foldlM_keeps (P := (· ⊆ graph.subgraphs)) ?_ known folded
        intro id _ visited next known taken
        split at taken
        · cases taken
        · rename_i child found
          exact ih (List.mem_reverse.1 (List.mem_of_find?_eq_some found)) known taken

theorem subset_of_nestingOrder {order : List Subgraph} (ordered : graph.nestingOrder = .ok order) :
    order ⊆ graph.subgraphs :=
  foldlM_keeps (P := (· ⊆ graph.subgraphs)) (fun _ mem _ _ => subset_of_visit _ mem) (List.nil_subset _) ordered

end Graph

namespace Scene

theorem parts_of_ofGraph (laid : ofGraph graph metrics = .ok scene) : ∃ order dx dy,
    graph.nestingOrder = .ok order ∧
    scene.shapes = graph.ids.map (fun id => (Placement.find (Placement.boxes graph metrics) id).shift dx dy) ∧
    scene.connectors = (Connector.ofGraph graph (Placement.boxes graph metrics)).map (Connector.shift dx dy) ∧
    scene.clusters = (Cluster.ofGraph graph metrics (Placement.boxes graph metrics) order).map
      (Cluster.shift dx dy) := by
  obtain ⟨order, ordered, rfl⟩ := content_of_ofGraph laid
  exact ⟨order, _, _, ordered, List.map_map, rfl, rfl⟩

theorem nodes_of_ofGraph (nodup : graph.ids.Nodup) (laid : ofGraph graph metrics = .ok scene) :
    scene.shapes.map ShapeBox.node = graph.nodes := by
  obtain ⟨order, dx, dy, -, shapes, -⟩ := parts_of_ofGraph laid
  rw [shapes, Graph.ids, List.map_map, List.map_map]
  conv => rhs; rw [← List.map_id graph.nodes]
  apply List.map_congr_left
  intro node mem
  exact Placement.node_find nodup mem

theorem cluster_of_ofGraph (laid : ofGraph graph metrics = .ok scene) {cluster : Cluster α}
    (mem : cluster ∈ scene.clusters) : (∃ subgraph ∈ graph.subgraphs, cluster.id = subgraph.id) ∧
      ∃ subgraph ∈ graph.subgraphs, cluster.title = some (Cluster.titleOf subgraph) := by
  obtain ⟨order, dx, dy, ordered, -, -, clusters⟩ := parts_of_ofGraph laid
  rw [clusters] at mem
  obtain ⟨placed, isPlaced, rfl⟩ := List.mem_map.1 mem
  obtain ⟨subgraph, isSubgraph, framed⟩ := List.mem_filterMap.1 isPlaced
  obtain ⟨box, -, rfl⟩ := Option.map_eq_some_iff.1 framed
  refine ⟨⟨subgraph, isSubgraph, rfl⟩, ?_⟩
  cases found : order.find? (·.id == subgraph.id) with
  | none => exact ⟨subgraph, isSubgraph, by simp [Cluster.shift]⟩
  | some visited =>
    have isVisited := Graph.subset_of_nestingOrder ordered (List.mem_of_find?_eq_some found)
    exact ⟨visited, isVisited, by simp [Cluster.shift]⟩

/-- The texts of a scene: titles, then all labels of the edges, then all labels of the nodes. -/
theorem texts_of_ofGraph (nodup : graph.ids.Nodup) (laid : ofGraph graph metrics = .ok scene) :
    (scene.captions metrics).map Caption.text =
      (scene.clusters.filterMap (Cluster.caption? metrics)).map Caption.text ++
        graph.edges.filterMap (fun edge => edge.label.filter (· ≠ "")) ++ graph.nodes.map Node.label := by
  obtain ⟨order, dx, dy, -, -, connectors, -⟩ := parts_of_ofGraph laid
  have edges : (scene.connectors.filterMap Connector.caption?).map Caption.text =
      graph.edges.filterMap fun edge => edge.label.filter (· ≠ "") := by
    rw [connectors]
    exact Connector.texts_routeFrom _ _ _ _ _ _ _
  have nodes : (scene.shapes.map ShapeBox.caption).map Caption.text = graph.nodes.map Node.label := by
    rw [← nodes_of_ofGraph nodup laid, List.map_map, List.map_map]
    rfl
  rw [captions, List.map_append, List.map_append, edges, nodes]

end Scene
end Flowchart
