import Flowchart.Proofs.Scene.Bands
import Flowchart.Proofs.Scene.Completeness
import Mathlib.Data.List.Nodup

/-!
The shapes of a finished scene: the boxes of the nodes in the order of the graph, all moved by the same distance.
Those of a rank are therefore what stands in its band, in the same order.
-/
namespace Flowchart

variable {direction : Direction} {metrics : Metrics Rat} {graph : Graph} {scene : Scene Rat} {rank : Nat}

namespace Placement

variable {shape other : ShapeBox Rat}

/-- Ids tell the boxes of a graph apart. -/
theorem eq_of_id (nodup : graph.ids.Nodup) (mem : shape ∈ boxes graph metrics) (isOther : other ∈ boxes graph metrics)
    (same : shape.id = other.id) : shape = other := by
  obtain ⟨rank, mem⟩ := mem_boxes.1 mem
  obtain ⟨otherRank, isOther⟩ := mem_boxes.1 isOther
  obtain rfl : rank = otherRank := by
    rw [← (rank_of_mem mem).2, ← (rank_of_mem isOther).2, same]
  have distinct : ((rowOf graph metrics rank).map ShapeBox.id).Nodup := by
    rw [ids_rowOf]
    exact nodup.sublist (List.filter_sublist.map _)
  exact List.inj_on_of_nodup_map distinct mem isOther same

theorem find_mem (metrics : Metrics Rat) {id : String} (known : id ∈ graph.ids) :
    find (boxes graph metrics) id ∈ boxes graph metrics ∧ (find (boxes graph metrics) id).id = id := by
  have boxed : id ∈ (boxes graph metrics).map ShapeBox.id := mem_ids_boxes.2 known
  obtain ⟨shape, isShape, isId⟩ := List.mem_map.1 boxed
  cases found : (boxes graph metrics).find? (·.id == id) with
  | none => exact absurd (beq_iff_eq.2 isId) (List.find?_eq_none.1 found shape isShape)
  | some box =>
    have isFound := List.find?_some found
    rw [find, found]
    exact ⟨List.mem_of_find?_eq_some found, beq_iff_eq.1 isFound⟩

theorem find_of_mem (nodup : graph.ids.Nodup) (mem : shape ∈ boxes graph metrics) :
    find (boxes graph metrics) shape.id = shape := by
  obtain ⟨isBox, isId⟩ := find_mem metrics (mem_ids_boxes.1 (List.mem_map_of_mem mem))
  exact eq_of_id nodup isBox mem isId

end Placement

namespace Layout

/-- What is laid out of a graph, before it is moved into place. -/
def content (graph : Graph) (metrics : Metrics Rat) (order : List Subgraph) : Content Rat :=
  let boxes := Placement.boxes graph metrics
  ⟨boxes, Cluster.ofGraph graph metrics boxes order, Connector.ofGraph graph boxes⟩

end Layout

namespace Scene

theorem eq_of_ofGraph (laid : Scene.ofGraph graph metrics = .ok scene) : ∃ order, graph.nestingOrder = .ok order ∧
    scene = (Layout.content graph metrics order).scene graph.direction metrics graph.ids :=
  content_of_ofGraph laid

theorem shapes_of_ofGraph (laid : Scene.ofGraph graph metrics = .ok scene) : ∃ dx dy, scene.shapes =
    graph.ids.map fun id => (Placement.find (Placement.boxes graph metrics) id).shift dx dy := by
  obtain ⟨order, -, rfl⟩ := eq_of_ofGraph laid
  exact ⟨_, _, List.map_map⟩

/-- The shapes of a rank, in the order of the nodes. -/
def row (scene : Scene Rat) (rank : Nat) : List (ShapeBox Rat) :=
  scene.shapes.filter (·.rank = rank)

theorem row_eq (nodup : graph.ids.Nodup) {dx dy : Rat} (placed : scene.shapes =
      graph.ids.map fun id => (Placement.find (Placement.boxes graph metrics) id).shift dx dy) (rank : Nat) :
    scene.row rank = (Placement.rowOf graph metrics rank).map (ShapeBox.shift dx dy) := by
  have ranked (id : String) (known : id ∈ graph.ids) :
      (Placement.find (Placement.boxes graph metrics) id).rank = graph.rank id := by
    obtain ⟨isBox, isId⟩ := Placement.find_mem metrics known
    obtain ⟨place, mem⟩ := Placement.mem_boxes.1 isBox
    obtain ⟨isRank, isPlace⟩ := Placement.rank_of_mem mem
    rw [isRank, ← isPlace, isId]
  have same (id : String) (known : id ∈ graph.ids) :
      decide (((Placement.find (Placement.boxes graph metrics) id).shift dx dy).rank = rank) =
        (graph.rank id == rank) := by
    rw [← ranked id known]
    rfl
  have ids : graph.ids.filter (fun id => graph.rank id == rank) =
      (Placement.rowOf graph metrics rank).map ShapeBox.id := by
    rw [Placement.ids_rowOf, Graph.ids, List.filter_map]
    rfl
  rw [row, placed, List.filter_map, Function.comp_def, List.filter_congr same, ids, List.map_map]
  apply List.map_congr_left
  intro shape mem
  exact congrArg (ShapeBox.shift dx dy) (Placement.find_of_mem nodup (Placement.mem_boxes.2 ⟨rank, mem⟩))

end Scene
end Flowchart
