import Flowchart.Proofs.Scene.Enclosure
import Flowchart.Proofs.Scene.Routes

/-!
Where the edges of a scene end. Of two different nodes, each lies beyond a side of the other, and an edge leaves and
enters in the middle of these sides. So the straight way from its one end to the other stays outside both nodes.
-/
namespace Flowchart

variable {direction : Direction} {graph : Graph} {metrics : Metrics Rat} {scene : Scene Rat} {side : Side}

/-- The points on the straight way from a start to a stop. -/
def Point.Between (start stop point : Point Rat) : Prop :=
  ∃ part : Rat, 0 ≤ part ∧ part ≤ 1 ∧
    point = ⟨start.x + part * (stop.x - start.x), start.y + part * (stop.y - start.y)⟩

theorem Point.Between.symm {start stop point : Point Rat} (between : start.Between stop point) :
    stop.Between start point := by
  obtain ⟨part, nonneg, le_one, rfl⟩ := between
  refine ⟨1 - part, by linarith, by linarith, ?_⟩
  rw [mk.injEq]
  constructor <;> ring

def Side.opposite : Side → Side
  | .top => .bottom
  | .bottom => .top
  | .left => .right
  | .right => .left

namespace Box

/-- The corners where a side starts and stops. -/
def corners (box : Box Rat) : Side → Point Rat × Point Rat
  | .top => (⟨box.x, box.y⟩, ⟨box.x + box.width, box.y⟩)
  | .bottom => (⟨box.x, box.y + box.height⟩, ⟨box.x + box.width, box.y + box.height⟩)
  | .left => (⟨box.x, box.y⟩, ⟨box.x, box.y + box.height⟩)
  | .right => (⟨box.x + box.width, box.y⟩, ⟨box.x + box.width, box.y + box.height⟩)

variable {box other : Box Rat}

theorem middle_eq (box : Box Rat) (side : Side) :
    box.middle side = (box.corners side).1.midpoint (box.corners side).2 := by
  cases side <;>
    simp only [middle, center, right, bottom, corners, Point.midpoint, Coordinate.two_eq, Point.mk.injEq] <;>
    constructor <;>
    ring

/-- The other box lies beyond a side of the box; the two may touch. -/
def Faces (side : Side) (box other : Box Rat) : Prop :=
  side.Covers (other.edge side.opposite) (box.edge side)

theorem Faces.symm (faces : box.Faces side other) : other.Faces side.opposite box := by
  cases side <;> exact faces

theorem not_encloses_of_faces (faces : box.Faces side other) {point : Point Rat}
    (between : (box.middle side).Between (other.middle side.opposite) point) : ¬box.Encloses point := by
  obtain ⟨part, nonneg, -, rfl⟩ := between
  rintro ⟨⟨left, right⟩, top, bottom⟩
  -- Away from the box, the way only gets further beyond the side.
  cases side with
  | top | left =>
    have onward := mul_nonneg nonneg (sub_nonneg.2 faces)
    simp only [middle, edge, Side.opposite] at *
    linarith
  | bottom | right =>
    have onward := mul_nonneg nonneg (sub_nonneg.2 faces)
    simp only [middle, edge, Side.opposite] at *
    linarith

variable {gap : Rat}

theorem faces_of_precedes (gap_nonneg : 0 ≤ gap) (precedes : box.Precedes direction gap other) :
    box.Faces direction.sides.exit other := by
  cases direction <;> exact le_trans (le_add_of_nonneg_right gap_nonneg) precedes

theorem faces_of_cross (gap_nonneg : 0 ≤ gap) (apart : box.crossEnd direction + gap ≤ other.crossStart direction) :
    box.Faces direction.sides.after other := by
  cases direction <;> exact le_trans (le_add_of_nonneg_right gap_nonneg) apart

end Box

theorem Direction.sides_opposite (direction : Direction) : direction.sides.exit.opposite = direction.sides.entry ∧
    direction.sides.after.opposite = direction.sides.before ∧
      direction.sides.entry.opposite = direction.sides.exit ∧
        direction.sides.before.opposite = direction.sides.after := by
  cases direction <;> exact ⟨rfl, rfl, rfl, rfl⟩

namespace Connector

/-- A connector leaves the one box and enters the other in the middle of opposite sides, and the straight way between
its ends keeps out of both. -/
structure Joins (source target : Box Rat) (connector : Connector Rat) : Prop where
  sides : ∃ side : Side,
    connector.points.head? = some ((source.corners side).1.midpoint (source.corners side).2) ∧
      connector.points.getLast? = some ((target.corners side.opposite).1.midpoint (target.corners side.opposite).2)
  outside : ∀ start ∈ connector.points.head?, ∀ stop ∈ connector.points.getLast?, ∀ point,
    start.Between stop point → ¬source.Encloses point ∧ ¬target.Encloses point

theorem joins_of_faces {source target : Box Rat} {connector : Connector Rat} (faces : source.Faces side target)
    (first : connector.points.head? = some (source.middle side))
    (last : connector.points.getLast? = some (target.middle side.opposite)) : connector.Joins source target := by
  refine ⟨⟨side, ?_, ?_⟩, ?_⟩
  · rw [first, Box.middle_eq]
  · rw [last, Box.middle_eq]
  · intro start isStart stop isStop point between
    obtain rfl := Option.some.inj (first.symm.trans isStart)
    obtain rfl := Option.some.inj (last.symm.trans isStop)
    refine ⟨Box.not_encloses_of_faces faces between, Box.not_encloses_of_faces faces.symm ?_⟩
    cases side <;> exact between.symm

end Connector

namespace Scene

section facing

variable (nodup : graph.ids.Nodup) (admissible : metrics.Admissible) (laid : Scene.ofGraph graph metrics = .ok scene)
include nodup admissible laid

/-- The shapes of a rank lie beyond one another across the flow. -/
theorem pairwise_faces (rank : Nat) :
    (scene.row rank).Pairwise fun shape later => shape.box.Faces graph.direction.sides.after later.box := by
  obtain ⟨dx, dy, placed⟩ := shapes_of_ofGraph laid
  have nodeGap : 0 ≤ metrics.nodeGap := by simpa using admissible.nodeGap
  rw [row_eq nodup placed, List.pairwise_map]
  refine (Placement.pairwise_rowOf admissible rank).imp fun close => Box.faces_of_cross nodeGap ?_
  simp only [ShapeBox.shift, Box.crossStart_shift, Box.crossEnd_shift]
  linarith

/-- Shapes lie beyond one another along the flow or, in a rank, across it, in the order of their seats. -/
theorem faces_of_mem {shape other : ShapeBox Rat} (mem : shape ∈ scene.shapes) (isOther : other ∈ scene.shapes) :
    (shape.rank < other.rank → shape.box.Faces graph.direction.sides.exit other.box) ∧
      (shape.rank = other.rank → shape.order < other.order →
        shape.box.Faces graph.direction.sides.after other.box) := by
  constructor
  · intro earlier
    obtain ⟨dx, dy, placed⟩ := shapes_of_ofGraph laid
    have moved {shape : ShapeBox Rat} (mem : shape ∈ scene.shapes) :
        ∃ base ∈ Placement.rowOf graph metrics shape.rank, base.shift dx dy = shape :=
      List.mem_map.1 (row_eq nodup placed shape.rank ▸ mem_row mem)
    obtain ⟨base, isBase, rfl⟩ := moved mem
    obtain ⟨next, isNext, rfl⟩ := moved isOther
    have rankGap : 0 ≤ metrics.rankGap := by simpa using admissible.rankGap
    have precedes := Placement.precedes_of_lt admissible isBase isNext earlier
    exact Box.faces_of_precedes rankGap ((Box.precedes_shift ..).2 precedes)
  · intro same before
    have inRow : (scene.row shape.rank).Pairwise fun shape later =>
        shape.rank = later.rank → (shape.order < later.order → shape.box.Faces graph.direction.sides.after later.box) ∧
          (later.order < shape.order → later.box.Faces graph.direction.sides.after shape.box) := by
      have beside := pairwise_faces nodup admissible laid shape.rank
      refine (((pairwise_order nodup laid).filter _).and beside).imp fun both same => ?_
      exact ⟨fun _ => both.2, fun after => absurd (both.1 same) after.not_gt⟩
    have : Std.Symm fun shape later : ShapeBox Rat => shape.rank = later.rank →
        (shape.order < later.order → shape.box.Faces graph.direction.sides.after later.box) ∧
          (later.order < shape.order → later.box.Faces graph.direction.sides.after shape.box) :=
      ⟨fun _ _ beside same => (beside same.symm).symm⟩
    have differ : shape ≠ other := fun both => (both ▸ before).ne rfl
    exact (inRow.forall (mem_row mem) (same ▸ mem_row isOther) differ same).1 before

theorem exists_ends {shape other : ShapeBox Rat} (mem : shape ∈ scene.shapes) (isOther : other ∈ scene.shapes)
    (differ : shape ≠ other) : ∃ side : Side, shape.box.Faces side other.box ∧
      Connector.ends graph.direction shape other = (shape.box.middle side, other.box.middle side.opposite) := by
  obtain ⟨exit, after, entry, before⟩ := graph.direction.sides_opposite
  have ⟨onward, beside⟩ := faces_of_mem nodup admissible laid mem isOther
  have ⟨back, beforehand⟩ := faces_of_mem nodup admissible laid isOther mem
  rw [Connector.ends]
  split_ifs with earlier later front
  · exact ⟨_, onward earlier, by rw [exit]⟩
  · exact ⟨_, exit ▸ (back later).symm, by rw [entry]⟩
  · exact ⟨_, beside (by omega) front, by rw [after]⟩
  · have behind : other.order < shape.order := by
      have := order_ne nodup laid mem isOther differ (by omega)
      omega
    exact ⟨_, after ▸ (beforehand (by omega) behind).symm, by rw [before]⟩

end facing

/-- The edges between different nodes of a graph join their shapes. -/
structure Connects (graph : Graph) (scene : Scene Rat) : Prop where
  ids : scene.ids = graph.ids
  edges : scene.connectors.map Connector.edge = graph.edges
  joins : ∀ connector ∈ scene.connectors, connector.source ≠ connector.target →
    ∃ source target, scene.shape? connector.source = some source ∧ scene.shape? connector.target = some target ∧
      connector.Joins source.box target.box

theorem connects_of_ofGraph (wellFormed : graph.WellFormed) (admissible : metrics.Admissible)
    (laid : Scene.ofGraph graph metrics = .ok scene) : scene.Connects graph := by
  refine ⟨ids_of_ofGraph laid, ?edges, ?joins⟩
  case edges => exact edges_of_ofGraph wellFormed.1 laid wellFormed
  case joins =>
    intro connector mem differ
    obtain ⟨source, isSource, sourceId, target, isTarget, targetId, slot, count, points⟩ :=
      exists_shapes wellFormed.1 laid wellFormed mem
    have apart : source ≠ target := fun both => differ (by rw [← sourceId, ← targetId, both])
    obtain ⟨side, faces, ends⟩ := exists_ends wellFormed.1 admissible laid isSource isTarget apart
    obtain ⟨first, last⟩ := Connector.ends_straight graph.direction source target slot count
    rw [if_neg differ] at points
    rw [← points, ends] at first last
    refine ⟨source, target, ?_, ?_, Connector.joins_of_faces faces first last⟩
    · rw [← sourceId, shape?_of_mem wellFormed.1 laid isSource]
    · rw [← targetId, shape?_of_mem wellFormed.1 laid isTarget]

/-- The edges of a diagram leave and enter on sides that face each other. -/
theorem connects_ofDiagram {diagram : Diagram} (built : Graph.ofDiagram diagram = .ok graph)
    (some : graph.nodes ≠ []) (admissible : metrics.Admissible) :
    ∃ scene, Scene.ofGraph graph metrics = .ok scene ∧ scene.Connects graph := by
  have wellFormed := Graph.wellFormed_ofDiagram built
  obtain ⟨scene, laid⟩ := ofGraph_ok wellFormed (Graph.grouped_ofDiagram built) some metrics
  exact ⟨scene, laid, connects_of_ofGraph wellFormed admissible laid⟩

/-- Edges to the next rank, back to the first one and within a rank. -/
theorem connects_ofDiagram_beside :
    ∃ diagram graph, diagram.statements =
        [.chain [⟨"A", some .circle, some "A", default⟩, ⟨"B", none, none, default⟩, ⟨"A", none, none, default⟩,
          ⟨"C", none, none, default⟩, ⟨"B", none, none, default⟩] (List.replicate 4 ⟨.solid, true, none, default⟩)
          default] ∧
      graph = ⟨.BT, [⟨"A", "A", .circle⟩, ⟨"B", "B", .rectangle⟩, ⟨"C", "C", .rectangle⟩],
        [⟨"A", "B", none, .solid, true⟩, ⟨"B", "A", none, .solid, true⟩, ⟨"A", "C", none, .solid, true⟩,
          ⟨"C", "B", none, .solid, true⟩], []⟩ ∧
      Graph.ofDiagram diagram = .ok graph ∧ graph.nodes ≠ [] ∧ (Metrics.standard : Metrics Rat).Admissible ∧
      ∃ scene, Scene.ofGraph graph (Metrics.standard : Metrics Rat) = .ok scene ∧ scene.Connects graph := by
  refine ⟨⟨.BT, default, _⟩, _, rfl, rfl, and_assoc.1 (and_assoc.1 ?_)⟩
  exact (and_iff_left_of_imp fun drawn => connects_ofDiagram drawn.1.1 drawn.1.2 drawn.2).2
    ⟨⟨rfl, List.cons_ne_nil _ _⟩, Metrics.admissible_standard⟩

end Scene
end Flowchart
