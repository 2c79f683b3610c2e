import Flowchart.Proofs.Scene.Arrangement
import Mathlib.Data.List.Chain
import Mathlib.Data.List.Pairwise

/-!
No two shapes of a scene overlap. Ranks follow one another along the flow with the rank gap between them; the nodes
of a rank stand in the order of the graph with the node gap between neighbours, centred on the widest rank.
-/
namespace Flowchart

variable {direction : Direction} {metrics : Metrics Rat} {graph : Graph} {scene : Scene Rat} {rank : Nat}

/-- How far a move of boxes goes along the flow. -/
def Direction.alongFlow (direction : Direction) (dx dy : Rat) : Rat :=
  if direction.isHorizontal then dx else dy

def Direction.acrossFlow (direction : Direction) (dx dy : Rat) : Rat :=
  if direction.isHorizontal then dy else dx

namespace Box

variable (direction) (dx dy : Rat) (box : Box Rat)

theorem flowStart_shift :
    (box.shift dx dy).flowStart direction = box.flowStart direction + direction.alongFlow dx dy := by
  cases horizontal : direction.isHorizontal <;> simp [flowStart, shift, Direction.alongFlow, horizontal]

theorem flowEnd_shift : (box.shift dx dy).flowEnd direction = box.flowEnd direction + direction.alongFlow dx dy := by
  cases horizontal : direction.isHorizontal <;>
    simp [flowEnd, right, bottom, shift, Direction.alongFlow, horizontal] <;> ring

theorem crossStart_shift :
    (box.shift dx dy).crossStart direction = box.crossStart direction + direction.acrossFlow dx dy := by
  cases horizontal : direction.isHorizontal <;> simp [crossStart, shift, Direction.acrossFlow, horizontal]

theorem crossEnd_shift :
    (box.shift dx dy).crossEnd direction = box.crossEnd direction + direction.acrossFlow dx dy := by
  cases horizontal : direction.isHorizontal <;>
    simp [crossEnd, right, bottom, shift, Direction.acrossFlow, horizontal] <;> ring

theorem precedes_shift {gap : Rat} {later : Box Rat} :
    (box.shift dx dy).Precedes direction gap (later.shift dx dy) ↔ box.Precedes direction gap later := by
  simp only [Precedes, flowStart_shift, flowEnd_shift]
  split <;> constructor <;> intro apart <;> linarith

/-- The point lies inside the box and not on its border. -/
def Encloses (box : Box Rat) (point : Point Rat) : Prop :=
  (box.x < point.x ∧ point.x < box.right) ∧ box.y < point.y ∧ point.y < box.bottom

variable {direction box} {point : Point Rat}

/-- Boxes that lie apart on an axis share no point inside. -/
theorem apart_of_flow (direction : Direction) {other : Box Rat}
    (apart : box.flowEnd direction ≤ other.flowStart direction) : ¬(box.Encloses point ∧ other.Encloses point) := by
  rintro ⟨⟨inX, inY⟩, otherX, otherY⟩
  rw [flowEnd, flowStart] at apart
  split at apart <;> linarith

theorem apart_of_precedes {other : Box Rat} {gap : Rat} (nonneg : 0 ≤ gap)
    (precedes : box.Precedes direction gap other) : ¬(box.Encloses point ∧ other.Encloses point) := by
  rw [Precedes] at precedes
  split at precedes
  · rw [and_comm]
    exact apart_of_flow direction (by linarith)
  · exact apart_of_flow direction (by linarith)

theorem apart_of_cross (direction : Direction) {other : Box Rat}
    (apart : box.crossEnd direction ≤ other.crossStart direction) : ¬(box.Encloses point ∧ other.Encloses point) := by
  rintro ⟨⟨inX, inY⟩, otherX, otherY⟩
  rw [crossEnd, crossStart] at apart
  split at apart <;> linarith

end Box

theorem Placement.span?_shift (dx dy : Rat) (shapes : List (ShapeBox Rat)) :
    span? direction (shapes.map (ShapeBox.shift dx dy)) = (span? direction shapes).map fun span =>
      (span.1 + direction.acrossFlow dx dy, span.2 + direction.acrossFlow dx dy) := by
  rw [span?, span?, List.head?_map, List.getLast?_map]
  cases shapes.head? with
  | none => rfl
  | some first =>
    cases shapes.getLast? with
    | none => rfl
    | some last =>
      refine congrArg some (Prod.ext ?_ ?_)
      · exact Box.crossStart_shift direction dx dy first.box
      · exact Box.crossEnd_shift direction dx dy last.box

namespace Scene

/-- How the shapes of a scene stand to one another. -/
structure Flows (graph : Graph) (metrics : Metrics Rat) (scene : Scene Rat) : Prop where
  nodes : scene.ids = graph.ids
  ranked : ∀ shape ∈ scene.shapes, shape.rank = graph.rank shape.id
  sized : ∀ shape ∈ scene.shapes, 0 < shape.box.width ∧ 0 < shape.box.height
  stacked : ∀ shape ∈ scene.shapes, ∀ later ∈ scene.shapes, shape.rank < later.rank →
    shape.box.Precedes graph.direction metrics.rankGap later.box
  neighbours : ∀ rank, (scene.row rank).IsChain fun left right =>
    right.box.crossStart graph.direction = left.box.crossEnd graph.direction + metrics.nodeGap
  ordered : ∀ rank, (scene.row rank).Pairwise fun left right =>
    left.box.crossEnd graph.direction + metrics.nodeGap ≤ right.box.crossStart graph.direction
  centred : ∃ widest start stop, Placement.span? graph.direction (scene.row widest) = some (start, stop) ∧
    ∀ rank span, Placement.span? graph.direction (scene.row rank) = some span →
      start ≤ span.1 ∧ span.2 ≤ stop ∧ span.1 - start = stop - span.2
  disjoint : ∀ shape ∈ scene.shapes, ∀ other ∈ scene.shapes, shape.id ≠ other.id →
    ∀ point, ¬(shape.box.Encloses point ∧ other.box.Encloses point)

theorem mem_row {shape : ShapeBox Rat} (mem : shape ∈ scene.shapes) : shape ∈ scene.row shape.rank :=
  List.mem_filter.2 ⟨mem, decide_eq_true rfl⟩

/-- Shapes that follow one another by rank and stand in a line within each rank do not overlap. -/
theorem disjoint_of_ordered {gap rankGap : Rat} (nodeGap_nonneg : 0 ≤ gap) (rankGap_nonneg : 0 ≤ rankGap)
    (stacked : ∀ shape ∈ scene.shapes, ∀ later ∈ scene.shapes, shape.rank < later.rank →
      shape.box.Precedes direction rankGap later.box)
    (ordered : ∀ rank, (scene.row rank).Pairwise fun left right =>
      left.box.crossEnd direction + gap ≤ right.box.crossStart direction)
    {shape other : ShapeBox Rat} (mem : shape ∈ scene.shapes) (isOther : other ∈ scene.shapes)
    (differ : shape ≠ other) (point : Point Rat) : ¬(shape.box.Encloses point ∧ other.box.Encloses point) := by
  rcases lt_trichotomy shape.rank other.rank with earlier | same | later
  · exact Box.apart_of_precedes rankGap_nonneg (stacked shape mem other isOther earlier)
  · have beside : (scene.row shape.rank).Pairwise fun left right =>
        ¬(left.box.Encloses point ∧ right.box.Encloses point) :=
      (ordered shape.rank).imp fun close => Box.apart_of_cross direction (by linarith)
    have : Std.Symm fun left right : ShapeBox Rat => ¬(left.box.Encloses point ∧ right.box.Encloses point) :=
      ⟨fun _ _ free both => free both.symm⟩
    exact beside.forall (mem_row mem) (same ▸ mem_row isOther) differ
  · rw [and_comm]
    exact Box.apart_of_precedes rankGap_nonneg (stacked other isOther shape mem later)

theorem flows_ofGraph (wellFormed : graph.WellFormed) (some : graph.nodes ≠ []) (admissible : metrics.Admissible) :
    (graph.Grouped → ∃ scene, Scene.ofGraph graph metrics = .ok scene) ∧
      ∀ scene, Scene.ofGraph graph metrics = .ok scene → scene.Flows graph metrics := by
  refine ⟨fun grouped => ofGraph_ok wellFormed grouped some metrics, fun scene laid => ?_⟩
  obtain ⟨dx, dy, placed⟩ := shapes_of_ofGraph laid
  have row := row_eq wellFormed.1 placed
  -- Every shape stands in its row, moved from a box of its rank.
  have moved {shape : ShapeBox Rat} (mem : shape ∈ scene.shapes) :
      ∃ base ∈ Placement.rowOf graph metrics shape.rank, base.shift dx dy = shape :=
    List.mem_map.1 (row shape.rank ▸ mem_row mem)
  have stacked (shape : ShapeBox Rat) (mem : shape ∈ scene.shapes) (later : ShapeBox Rat)
      (isLater : later ∈ scene.shapes) (earlier : shape.rank < later.rank) :
      shape.box.Precedes graph.direction metrics.rankGap later.box := by
    obtain ⟨base, isBase, isShape⟩ := moved mem
    obtain ⟨next, isNext, isNextShape⟩ := moved isLater
    rw [← isShape, ← isNextShape]
    exact (Box.precedes_shift ..).2 (Placement.precedes_of_lt admissible isBase isNext earlier)
  have ordered (rank : Nat) : (scene.row rank).Pairwise fun left right =>
      left.box.crossEnd graph.direction + metrics.nodeGap ≤ right.box.crossStart graph.direction := by
    rw [row, List.pairwise_map]
    refine (Placement.pairwise_rowOf admissible rank).imp fun close => ?_
    simp only [ShapeBox.shift, Box.crossStart_shift, Box.crossEnd_shift]
    linarith
  refine ⟨?nodes, ?ranked, ?sized, stacked, ?neighbours, ordered, ?centred, ?disjoint⟩
  case nodes =>
    rw [ids, placed, List.map_map]
    refine (List.map_congr_left fun id known => ?_).trans (List.map_id _)
    exact (Placement.find_mem metrics known).2
  case ranked =>
    intro shape mem
    obtain ⟨base, isBase, isShape⟩ := moved mem
    rw [← (Placement.rank_of_mem isBase).2, ← isShape]
    rfl
  case sized =>
    intro shape mem
    obtain ⟨base, isBase, isShape⟩ := moved mem
    have size := Placement.size_of_mem admissible isBase
    rw [← isShape]
    exact size
  case neighbours =>
    intro rank
    rw [row, List.isChain_map]
    refine (Placement.isChain_rowOf rank).imp fun left right close => ?_
    simp only [ShapeBox.shift, Box.crossStart_shift, Box.crossEnd_shift]
    linarith
  case centred =>
    obtain ⟨widest, start, stop, isSpan, centred⟩ := Placement.centred_rows wellFormed.1 some metrics
    refine ⟨widest, start + graph.direction.acrossFlow dx dy, stop + graph.direction.acrossFlow dx dy, ?_, ?_⟩
    · rw [row, Placement.span?_shift, isSpan]
      rfl
    · intro rank span isSpan
      rw [row, Placement.span?_shift, Option.map_eq_some_iff] at isSpan
      obtain ⟨base, isBase, rfl⟩ := isSpan
      obtain ⟨starts, stops, margins⟩ := centred rank base isBase
      constructor
      · linarith
      · constructor <;> linarith
  case disjoint =>
    intro shape mem other isOther differ
    have nodeGap : 0 ≤ metrics.nodeGap := by simpa using admissible.nodeGap
    have rankGap : 0 ≤ metrics.rankGap := by simpa using admissible.rankGap
    exact disjoint_of_ordered nodeGap rankGap stacked ordered mem isOther (ne_of_apply_ne _ differ)

/-- A node that is wider than the two of the next rank together. -/
theorem flows_ofGraph_wide :
    let graph : Graph := {
      direction := .BT
      nodes := [⟨"a", "a node with a long label", .rhombus⟩, ⟨"b", "b", .circle⟩, ⟨"c", "c", .rounded⟩]
      edges := [{ source := "a", target := "b" }, { source := "c", target := "c" }, { source := "a", target := "c" }]
      subgraphs := [{ id := "s", members := ["b"] }] }
    (graph.WellFormed ∧ graph.nodes ≠ [] ∧ (Metrics.standard : Metrics Rat).Admissible ∧ graph.Grouped) ∧
      ∃ scene, Scene.ofGraph graph Metrics.standard = .ok scene ∧ scene.Flows graph Metrics.standard := by
  intro graph
  have wellFormed : graph.WellFormed := ⟨by decide, by decide⟩
  have some : graph.nodes ≠ [] := by decide
  have grouped : graph.Grouped := ⟨by decide, by decide, by simp [graph, Nested]⟩
  have ⟨exists_scene, flows⟩ := flows_ofGraph wellFormed some Metrics.admissible_standard
  obtain ⟨scene, laid⟩ := exists_scene grouped
  exact ⟨⟨wellFormed, some, Metrics.admissible_standard, grouped⟩, scene, laid, flows scene laid⟩

end Scene
end Flowchart
